import Bindery.Naming
import Bindery.TypeRef
import Bindery.Vocabulary.Language
import Bindery.Vocabulary.Target
import Bindery.Vocabulary.Transfer

/-!
# Descriptions of programming interfaces

An `Api` lists opaque handles and interfaces. An interface has constructors, all
of which make the same handle, and methods. Types are kept as the texts that the
description writes, since a description can be built without any check; they are
read through `TypeRef.ofString?` wherever their form matters.
-/

namespace Bindery

/-- A parameter of an operation. -/
structure Parameter where
  name : String
  type : String
  transfer : Option Transfer := none
  description : Option String := none
deriving DecidableEq, Repr

/-- The result of an operation. -/
structure Returns where
  type : String
  description : Option String := none
deriving DecidableEq, Repr

/-- A constructor or a method. -/
structure Method where
  name : String
  description : Option String := none
  parameters : List Parameter := []
  returns : Option Returns := none
  /-- The enumeration that reports failures; without one the operation cannot fail. -/
  error : Option String := none
deriving DecidableEq, Repr

/-- A group of operations. -/
structure Interface where
  name : String
  description : Option String := none
  constructors : List Method := []
  methods : List Method := []
deriving DecidableEq, Repr

/-- An opaque object that crosses the boundary by reference. -/
structure Handle where
  name : String
  description : Option String := none
deriving DecidableEq, Repr

/-- What a description says about itself. -/
structure Metadata where
  name : String
  version : String
  description : Option String := none
  language : Language
  /-- The targets asked for; none means all. -/
  targets : List Target := []
deriving DecidableEq, Repr

/-- A whole description. -/
structure Api where
  metadata : Metadata
  /-- The schema files that define the types. -/
  schemas : List String
  handles : List Handle := []
  interfaces : List Interface
deriving DecidableEq, Repr

/-! ### Parameters and methods -/

/-- The transfer in effect: texts are borrowed and all else is copied unless the
description says otherwise. -/
def Parameter.effectiveTransfer (p : Parameter) : Transfer :=
  match p.transfer with
  | some t => t
  | none => if p.type = "string" then .ref else .value

/-- The form of the parameter's type. -/
def Parameter.typeRef? (p : Parameter) : Option TypeRef := TypeRef.ofString? p.type

/-- The four ways an operation can answer at the C interface. -/
inductive CallShape where
  | infallibleVoid | infallibleValue | fallibleVoid | fallibleValue
deriving DecidableEq, Repr

namespace Method

/-- Whether the operation can fail. -/
def isFallible (m : Method) : Bool := m.error.isSome

/-- The type of the result. -/
def returnType? (m : Method) : Option String := m.returns.map (·.type)

/-- How the operation answers. -/
def shape (m : Method) : CallShape :=
  match m.error, m.returns with
  | none, none => .infallibleVoid
  | none, some _ => .infallibleValue
  | some _, none => .fallibleVoid
  | some _, some _ => .fallibleValue

/-- The handle that the first parameter passes, if it passes one. -/
def leadingHandle? (m : Method) : Option String :=
  m.parameters.head? >>= Parameter.typeRef? >>= TypeRef.handleName?

/-- The handle that the method returns, if it returns one. -/
def returnedHandle? (m : Method) : Option String :=
  m.returnType? >>= TypeRef.ofString? >>= TypeRef.handleName?

end Method

/-! ### Interfaces -/

namespace Interface

/-- Constructors, then methods. -/
def authored (i : Interface) : List Method := i.constructors ++ i.methods

/-- The handle that the interface constructs, read off its first constructor. -/
def constructedHandle? (i : Interface) : Option String :=
  i.constructors.head? >>= Method.returnedHandle?

/-- The operation that destroys a handle. -/
def destructorOf (handle : String) : Method where
  name := Naming.destructorName handle
  description := some ("Destroy a " ++ handle ++ " created by this interface.")
  parameters := [{ name := Naming.handleToSnake handle, type := "handle:" ++ handle }]

/-- The destructor that goes with the constructors. -/
def destructor? (i : Interface) : Option Method :=
  i.constructedHandle?.map destructorOf

end Interface

/-! ### Descriptions -/

namespace Api

/-- The name of the description, the stem of every generated name. -/
def name (a : Api) : String := a.metadata.name

/-- The targets to generate for: all of them when none is listed. -/
def effectiveTargets (a : Api) : List Target :=
  if a.metadata.targets.isEmpty then Target.all else a.metadata.targets

/-- Whether a target is generated for. -/
def hasTarget (a : Api) (t : Target) : Bool := a.effectiveTargets.contains t

/-- The description with another language or other targets. An empty list of
targets changes nothing. -/
def override (a : Api) (language : Option Language) (targets : List Target) : Api :=
  { a with metadata :=
    { a.metadata with
      language := language.getD a.metadata.language
      targets := if targets.isEmpty then a.metadata.targets else targets } }

/-- All constructors and methods, interface by interface. -/
def authored (a : Api) : List Method := a.interfaces.flatMap Interface.authored

/-- The interface that owns a handle: the first one that constructs it. -/
def handleOwner? (a : Api) (handle : String) : Option Interface :=
  a.interfaces.find? fun i => i.constructedHandle? == some handle

/-- The symbol of the operation that destroys a handle. -/
def destructorSymbol? (a : Api) (handle : String) : Option String :=
  (a.handleOwner? handle).map fun i =>
    Naming.cSymbol a.name i.name (Naming.destructorName handle)

/-- The error enumerations in order of first use. -/
def errorTypes (a : Api) : List String :=
  Text.distinct (a.authored.filterMap Method.error)

end Api

end Bindery
