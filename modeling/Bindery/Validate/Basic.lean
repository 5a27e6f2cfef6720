import Bindery.Api.Basic
import Bindery.Validate.Finding

/-!
# Validation

The rules that the shape of a document cannot express:

* names of handles, of interfaces, and of the operations of one interface are
  distinct, the destructor included;
* an interface has an operation; constructors are named as such, can fail, make
  one and the same handle and take none;
* every type is known, crosses the boundary, and is transferred as it can be;
* every error type is an enumeration.

All rules are applied to the whole description, and all findings are reported in
the order of the description. Rules about schema types need a schema; without one
they are skipped and all others apply unchanged.
-/

namespace Bindery

namespace Validate

/-- What the rules look at besides the description's own parts. -/
structure Scope where
  /-- The declared handles. -/
  handles : List String
  /-- The schema types, if they are known. -/
  types : Option Schema

/-- A place in a list. -/
def atIndex (list : String) (index : Nat) : String := list ++ "[" ++ toString index ++ "]"

/-- Findings for each member of a list, each seen from outside. -/
def eachFrom {α : Type} (list : String) (f : α → List Finding) : Nat → List α → List Finding
  | _, [] => []
  | i, x :: rest => (f x).map (Finding.below (atIndex list i)) ++ eachFrom list f (i + 1) rest

/-- Findings for each member of a list, which may depend on the members before. -/
def eachAfter {α : Type} (list : String) (f : List α → α → List Finding) :
    Nat → List α → List α → List Finding
  | _, _, [] => []
  | i, before, x :: rest =>
    (f before x).map (Finding.below (atIndex list i)) ++ eachAfter list f (i + 1) (before ++ [x]) rest

/-! ### Types -/

namespace Scope

/-- A handle must be declared. -/
def checkHandle (s : Scope) (path name : String) : List Finding :=
  findingIf (!s.handles.contains name) path (.undeclaredHandle name)

/-- A schema type must exist and must not be a union. -/
def checkQualified (s : Scope) (path name : String) : List Finding :=
  match s.types with
  | none => []
  | some types =>
    match types.get? name with
    | none => [⟨path, .missingType name⟩]
    | some d => findingIf (d.kind = .union) path (.unionType name)

/-- An error type must be an enumeration. -/
def checkError (s : Scope) (path name : String) : List Finding :=
  match s.types with
  | none => []
  | some types =>
    match types.get? name with
    | none => [⟨path, .missingErrorType name⟩]
    | some d => findingIf (d.kind ≠ .enum) path (.errorNotEnum name d.kind)

/-- The rules for a parameter. -/
def checkParameter (s : Scope) (p : Parameter) : List Finding :=
  match TypeRef.bufferElement? p.type with
  | some element =>
    findingIf ((Primitive.ofName? element).filter Primitive.isBufferElement).isNone ".type"
        (.bufferElement element)
      ++ findingIf (p.transfer ≠ some .ref && p.transfer ≠ some .refMut) ".transfer" .bufferTransfer
  | none =>
    match TypeRef.ofString? p.type with
    | some (.primitive _) => []
    | some .string =>
      findingIf (p.transfer.any (· ≠ .ref)) ".transfer" .stringTransfer
    | some (.handle name) =>
      s.checkHandle ".type" name
        ++ findingIf (p.transfer.any (· ≠ .value)) ".transfer" .handleTransfer
    | some (.qualified name) => s.checkQualified ".type" name
    | some (.buffer _) | none => [⟨".type", .unknownType p.type⟩]

/-- The rules for a result. -/
def checkReturn (s : Scope) (type : String) : List Finding :=
  let path := ".returns.type"
  if type = "string" ∨ (TypeRef.bufferElement? type).isSome then [⟨path, .notReturnable type⟩]
  else match TypeRef.ofString? type with
  | some (.primitive _) => []
  | some (.handle name) => s.checkHandle path name
  | some (.qualified name) => s.checkQualified path name
  | _ => [⟨path, .unknownReturnType type⟩]

/-- The rules for constructors and methods alike. -/
def checkMethod (s : Scope) (m : Method) : List Finding :=
  eachFrom ".parameters" s.checkParameter 0 m.parameters
    ++ (m.returns.toList.flatMap fun r => s.checkReturn r.type)
    ++ (m.error.toList.flatMap fun e => s.checkError ".error" e)

end Scope

/-! ### Constructors -/

/-- The first handle that one of these methods returns. -/
def firstHandle? (ms : List Method) : Option String := ms.findSome? Method.returnedHandle?

/-- What a constructor returns, given the constructors before it. -/
def checkConstructed (interface : String) (before : List Method) (m : Method) : List Finding :=
  match m.returns with
  | none => [⟨".returns", .constructorWithoutResult⟩]
  | some r =>
    match TypeRef.ofString? r.type with
    | some (.handle name) =>
      match firstHandle? before with
      | some first =>
        findingIf (first ≠ name) ".returns.type" (.otherHandle name interface first)
      | none => []
    | _ => [⟨".returns.type", .constructorResult r.type⟩]

/-- A parameter of a constructor is no handle. -/
def checkNoHandle (p : Parameter) : List Finding :=
  findingIf (p.typeRef? >>= TypeRef.handleName?).isSome ".type" .constructorTakesHandle

/-- The rules for a constructor, given those before it. -/
def checkConstructor (s : Scope) (interface : String) (before : List Method) (m : Method) :
    List Finding :=
  findingIf (!Naming.isConstructorName m.name) ".name" (.constructorName m.name)
    ++ findingIf m.error.isNone ".error" .constructorWithoutError
    ++ checkConstructed interface before m
    ++ eachFrom ".parameters" checkNoHandle 0 m.parameters
    ++ s.checkMethod m

/-! ### Names -/

/-- Whether a name is that of one of these methods. -/
def isTaken (ms : List Method) (name : String) : Bool := (ms.map (·.name)).contains name

/-- Constructor names are distinct. -/
def checkConstructorName (interface : String) (before : List Method) (m : Method) : List Finding :=
  findingIf (isTaken before m.name) ".name" (.duplicateConstructor m.name interface)

/-- A method has a name of its own, and not that of the destructor. -/
def checkMethodName (i : Interface) (before : List Method) (m : Method) : List Finding :=
  if isTaken (i.constructors ++ before) m.name then [⟨".name", .methodCollision m.name i.name⟩]
  else findingIf (i.destructor?.any (·.name = m.name)) ".name" (.methodIsDestructor m.name)

/-! ### Interfaces, handles, descriptions -/

/-- The rules for an interface, given those before it. -/
def checkInterface (s : Scope) (before : List Interface) (i : Interface) : List Finding :=
  findingIf ((before.map (·.name)).contains i.name) ".name" (.duplicateInterface i.name)
    ++ findingIf (i.constructors.isEmpty && i.methods.isEmpty) "" (.emptyInterface i.name)
    ++ eachAfter ".constructors" (checkConstructorName i.name) 0 [] i.constructors
    ++ eachAfter ".methods" (checkMethodName i) 0 [] i.methods
    ++ eachAfter ".constructors" (checkConstructor s i.name) 0 [] i.constructors
    ++ eachFrom ".methods" s.checkMethod 0 i.methods

/-- The rules for a handle, given those before it. -/
def checkHandleName (before : List Handle) (h : Handle) : List Finding :=
  findingIf (!isPascalIdentifier h.name) ".name" (.handleNotPascal h.name)
    ++ findingIf ((before.map (·.name)).contains h.name) ".name" (.duplicateHandle h.name)

end Validate

open Validate

/-- All findings about a description. -/
def Api.validate (a : Api) (types : Option Schema) : List Finding :=
  let s : Scope := ⟨a.handles.map (·.name), types⟩
  eachAfter "handles" checkHandleName 0 [] a.handles
    ++ eachAfter "interfaces" (checkInterface s) 0 [] a.interfaces

end Bindery
