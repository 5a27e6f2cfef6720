import Bindery.Api.Basic
import Bindery.Json.Basic

/-!
# Descriptions as document trees

`Api.ofJson?` reads a description from a document tree and `Api.toJson` writes it
back. Reading ignores keys it does not know. An optional text may be absent or
null, an optional list may only be absent. Where a group of values is expected, a
list of them in order will do as well as an object.

Writing leaves out what is absent, always writes the lists of handles, operations
and parameters, and spells the language in its canonical form.
-/

namespace Bindery

namespace Json

/-- The text of a value. -/
def text? : Json → Option String
  | str s => some s
  | _ => none

/-- The items of an array. -/
def items? : Json → Option (List Json)
  | arr items => some items
  | _ => none

/-- A group of values under these keys: the entries of an object, or the items of
an array that is not longer than the list of keys. -/
def group? (keys : List String) : Json → Option (List (String × Json))
  | obj entries => some entries
  | arr items => if items.length ≤ keys.length then some (keys.zip items) else none
  | _ => none

/-- A value that must be there. -/
def required {α : Type} (read : Json → Option α) (key : String)
    (entries : List (String × Json)) : Option α :=
  lookupEntry key entries >>= read

/-- A value that may be absent or null. -/
def optional {α : Type} (read : Json → Option α) (key : String)
    (entries : List (String × Json)) : Option (Option α) :=
  match lookupEntry key entries with
  | none | some null => some none
  | some v => (read v).map some

/-- A list that may be absent. -/
def listOf {α : Type} (read : Json → Option α) (key : String)
    (entries : List (String × Json)) : Option (List α) :=
  match lookupEntry key entries with
  | none => some []
  | some v => v.items? >>= (·.mapM read)

/-- An entry that is left out when its value is absent. -/
def present (key : String) : Option String → List (String × Json)
  | none => []
  | some s => [(key, str s)]

end Json

open Json

/-! ### Reading -/

/-- Reads a handle. -/
def Handle.ofJson? (j : Json) : Option Handle := do
  let e ← j.group? ["name", "description"]
  return { name := ← required text? "name" e, description := ← optional text? "description" e }

/-- Reads a parameter. -/
def Parameter.ofJson? (j : Json) : Option Parameter := do
  let e ← j.group? ["name", "type", "transfer", "description"]
  return {
    name := ← required text? "name" e
    type := ← required text? "type" e
    transfer := ← optional (fun v => v.text? >>= Transfer.ofName?) "transfer" e
    description := ← optional text? "description" e }

/-- Reads a result. -/
def Returns.ofJson? (j : Json) : Option Returns := do
  let e ← j.group? ["type", "description"]
  return { type := ← required text? "type" e, description := ← optional text? "description" e }

/-- Reads a constructor or method. -/
def Method.ofJson? (j : Json) : Option Method := do
  let e ← j.group? ["name", "description", "parameters", "returns", "error"]
  return {
    name := ← required text? "name" e
    description := ← optional text? "description" e
    parameters := ← listOf Parameter.ofJson? "parameters" e
    returns := ← optional Returns.ofJson? "returns" e
    error := ← optional text? "error" e }

/-- Reads an interface. -/
def Interface.ofJson? (j : Json) : Option Interface := do
  let e ← j.group? ["name", "description", "constructors", "methods"]
  return {
    name := ← required text? "name" e
    description := ← optional text? "description" e
    constructors := ← listOf Method.ofJson? "constructors" e
    methods := ← listOf Method.ofJson? "methods" e }

/-- Reads what a description says about itself. -/
def Metadata.ofJson? (j : Json) : Option Metadata := do
  let e ← j.group? ["name", "version", "description", "impl_lang", "targets"]
  return {
    name := ← required text? "name" e
    version := ← required text? "version" e
    description := ← optional text? "description" e
    language := ← required (fun v => v.text? >>= Language.ofName?) "impl_lang" e
    targets := ← listOf (fun v => v.text? >>= Target.ofName?) "targets" e }

/-- Reads a description. -/
def Api.ofJson? (j : Json) : Option Api := do
  let e ← j.group? ["api", "flatbuffers", "handles", "interfaces"]
  return {
    metadata := ← required Metadata.ofJson? "api" e
    schemas := ← required (fun v => v.items? >>= (·.mapM text?)) "flatbuffers" e
    handles := ← listOf Handle.ofJson? "handles" e
    interfaces := ← required (fun v => v.items? >>= (·.mapM Interface.ofJson?)) "interfaces" e }

/-! ### Writing -/

/-- Writes a handle. -/
def Handle.toJson (h : Handle) : Json :=
  ofEntries (("name", str h.name) :: present "description" h.description)

/-- Writes a parameter. -/
def Parameter.toJson (p : Parameter) : Json :=
  ofEntries ([("name", str p.name), ("type", str p.type)]
    ++ present "transfer" (p.transfer.map Transfer.name)
    ++ present "description" p.description)

/-- Writes a result. -/
def Returns.toJson (r : Returns) : Json :=
  ofEntries (("type", str r.type) :: present "description" r.description)

/-- Writes a constructor or method. -/
def Method.toJson (m : Method) : Json :=
  ofEntries ([("name", str m.name), ("parameters", arr (m.parameters.map Parameter.toJson))]
    ++ present "description" m.description
    ++ (m.returns.map fun r => ("returns", r.toJson)).toList
    ++ present "error" m.error)

/-- Writes an interface. -/
def Interface.toJson (i : Interface) : Json :=
  ofEntries ([("name", str i.name), ("constructors", arr (i.constructors.map Method.toJson)),
      ("methods", arr (i.methods.map Method.toJson))]
    ++ present "description" i.description)

/-- Writes what a description says about itself. -/
def Metadata.toJson (m : Metadata) : Json :=
  ofEntries ([("name", str m.name), ("version", str m.version),
      ("impl_lang", str m.language.name)]
    ++ present "description" m.description
    ++ if m.targets.isEmpty then []
      else [("targets", arr (m.targets.map fun t => str t.name))])

/-- Writes a description. -/
def Api.toJson (a : Api) : Json :=
  ofEntries [("api", a.metadata.toJson), ("flatbuffers", arr (a.schemas.map str)),
    ("handles", arr (a.handles.map Handle.toJson)),
    ("interfaces", arr (a.interfaces.map Interface.toJson))]

end Bindery
