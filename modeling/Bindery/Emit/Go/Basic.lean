import Bindery.Abi.Layout
import Bindery.Emit.Context

/-!
# Go values

What the cgo build and the WebAssembly build of a Go library have in common: the
spelling of names, the values that move between foreign memory and Go, and the
methods that are dispatched through Go interfaces. The value behind a handle is a
structure that implements every interface with a method on that handle.
-/

namespace Bindery.Go

/-! ### Names -/

/-- The reserved words. -/
def keywords : List String :=
  ["break", "case", "chan", "const", "continue", "default", "defer", "else", "fallthrough", "for",
    "func", "go", "goto", "if", "import", "interface", "map", "package", "range", "return",
    "select", "struct", "switch", "type", "var"]

/-- A name in Go, with an underscore behind it when it is reserved. -/
def identifier (name : String) : String :=
  if keywords.contains name then name ++ "_" else name

/-- The name of a parameter of an interface method. -/
def argName (p : Parameter) : String := identifier (Naming.camelCase p.name)

/-- The Go interface of an interface. -/
def interfaceName (i : Interface) : String := Naming.pascalCase i.name

/-- The structure behind every handle of a type. -/
def handleStruct (handle : String) : String := handle ++ "Impl"

/-! ### Values -/

/-- A value that moves between foreign memory and Go: a field, an element or a
result. -/
inductive Value where
  | scalar (p : Primitive)
  | text
  | enum (name : String) (base : Primitive)
  | record (name : String)
deriving DecidableEq, Repr

namespace Value

/-- The type in Go. -/
def go : Value → String
  | scalar p => p.row.go
  | text => "string"
  | enum name _ => Naming.flatTypeName name
  | record name => Naming.flatTypeName name

/-- The type of the C storage. -/
def cgo : Value → String
  | scalar p => p.row.cgo
  | text => "*C.char"
  | enum name _ => "C." ++ Naming.cTypeName name
  | record name => "C." ++ Naming.cTypeName name

/-- Whether the value is a record. -/
def isRecord : Value → Bool
  | record _ => true
  | _ => false

/-- The value of a schema type by name; unions and unknown names have none. -/
def ofName? (types : Schema) (name : String) : Option Value :=
  match types.get? name with
  | none => none
  | some d =>
    if d.isEnum then some (enum name Schema.enumScalar)
    else if d.isRecord then some (record name)
    else none

/-- The value of a schema type that must be there. -/
def ofName (types : Schema) (name : String) : Except Fault Value :=
  match ofName? types name with
  | some v => .ok v
  | none => .error (.missingType name)

/-- The value of a field type that is no vector. -/
def ofScalar? (types : Schema) : FieldType → Option Value
  | .primitive p => some (scalar p)
  | .string => some text
  | .named name => ofName? types name
  | .vector _ => none

end Value

/-- A field of a record on the Go side. -/
inductive Shape where
  | one (v : Value)
  | many (v : Value)
  /-- A reference that is not looked through. -/
  | hidden
deriving DecidableEq, Repr

/-- The Go side of a field. -/
def Shape.ofField (types : Schema) : FieldType → Shape
  | .vector inner => ((Value.ofScalar? types inner).map Shape.many).getD .hidden
  | other => ((Value.ofScalar? types other).map Shape.one).getD .hidden

/-! ### Methods -/

/-- The methods of an interface that are dispatched: those with a handle in front. -/
def dispatched (i : Interface) : List Method :=
  i.methods.filter fun m => m.leadingHandle?.isSome

/-- The interfaces with a method on a handle. -/
def interfacesOn (api : Api) (handle : String) : List Interface :=
  api.interfaces.filter fun i => (dispatched i).any fun m => m.leadingHandle? == some handle

/-- The type of a parameter of an interface method. -/
def paramType (p : Parameter) : Except Fault String := do
  match ← Abi.classify p.type with
  | .string => return "string"
  | .buffer element => return "[]" ++ element.row.go
  | .handle _ => return "uintptr"
  | .primitive q => return q.row.go
  | .qualified q =>
    let flat := Naming.flatTypeName q
    return if p.effectiveTransfer = .refMut then "*" ++ flat else flat

/-- The type of a result. -/
def returnType (ty : String) : Except Fault String := do
  match ← Abi.classify ty with
  | .handle _ => return "uintptr"
  | .primitive p => return p.row.go
  | .qualified q => return Naming.flatTypeName q
  | .string | .buffer _ => throw (.unsupported (ty ++ " cannot be returned by value"))

/-- The zero of a result type. -/
def zero (ctx : Context) (ty : String) : Except Fault String := do
  match ← Abi.classify ty with
  | .primitive .bool => return "false"
  | .qualified q => return if ctx.isEnum q then "0" else Naming.flatTypeName q ++ "\x7b\x7d"
  | _ => return "0"

/-- A method of a Go interface. -/
structure MethodSig where
  name : String
  /-- Names and types, without the handle in front. -/
  params : List (String × String)
  /-- The results, with a blank in front if there are any. -/
  results : String
deriving DecidableEq, Repr

/-- The method that an operation is dispatched to. -/
def MethodSig.ofMethod (m : Method) : Except Fault MethodSig := do
  let params ← (m.parameters.drop 1).mapM fun p => do return (argName p, ← paramType p)
  let results ← match m.error, m.returns with
    | some _, some r => do pure (" (" ++ (← returnType r.type) ++ ", error)")
    | some _, none => pure " error"
    | none, some r => do pure (" " ++ (← returnType r.type))
    | none, none => pure ""
  return { name := Naming.pascalCase m.name, params, results }

/-- The text of a method. -/
def MethodSig.text (s : MethodSig) : String :=
  s.name ++ "(" ++ Text.commaSep (s.params.map fun p => p.1 ++ " " ++ p.2) ++ ")" ++ s.results

/-! ### Calls -/

/-- The structure behind the handle that a constructor returns. -/
def constructedStruct (m : Method) : Except Fault String :=
  match m.returnedHandle? with
  | some handle => .ok (handleStruct handle)
  | none => .error (.internal ("constructor " ++ m.name ++ " returns no handle"))

/-- The code of a failure without a better one. -/
def failureCode (ctx : Context) (m : Method) : Except Fault Int :=
  match m.error with
  | some e => (ctx.failureValue e).map (·.value)
  | none => .ok 0

/-- The name of the first parameter. -/
def firstName (m : Method) : String := (m.parameters.head?.map fun p => identifier p.name).getD ""

/-- What a parameter takes when a method is dispatched. -/
structure Passed where
  /-- Statements before the call. -/
  locals : List String := []
  arg : String
  /-- Statements after the call. -/
  writeBacks : List String := []
  /-- Whether memory is handed out for the parameter. -/
  retains : Bool := false
deriving DecidableEq, Repr

/-- The check of an error that a method returned. -/
def errorCheck (fallback : Int) : List Line :=
  Code.block "if err != nil" (Code.lines ["return _errorCode(err, " ++ toString fallback ++ ")"])

/-- The remark in a function that no handle dispatches. -/
def todo (m : Method) : String :=
  "// TODO: implement " ++ m.name ++ "; no handle selects an implementation."

/-- The imports of both builds. -/
def importLines : List Line :=
  Code.enclosed "import (" ")"
    (Code.lines ["\"errors\"", "\"sync\"", "\"sync/atomic\"", "\"unsafe\""])
    ++ [Line.blank]

/-- The table of live handles. -/
def handleHelpers : List Line :=
  Code.enclosed "var (" ")" (Code.lines ["_handles    sync.Map", "_nextHandle atomic.Uintptr"])
    ++ [Line.blank]
    ++ Code.block "func _allocHandle(impl any) uintptr"
      (Code.lines ["key := _nextHandle.Add(1)", "_handles.Store(key, impl)", "return key"])
    ++ [Line.blank]
    ++ Code.block "func _lookup(key uintptr) any"
      (Code.lines ["impl, _ := _handles.Load(key)", "return impl"])
    ++ [Line.blank]
    ++ Code.block "func _freeHandle(key uintptr)"
      (Code.lines ["_handles.Delete(key)", "_release(key)"])
    ++ [Line.blank]

end Bindery.Go
