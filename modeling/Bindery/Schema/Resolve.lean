import Bindery.Schema.Scan

/-!
# From definitions to a schema

The definitions of all files together form one schema, provided that no name is
defined twice. After that each reference that names no type is tried again inside
the namespace of its definition.
-/

namespace Bindery.Schema

/-- A name that is defined twice. -/
structure Duplicate where
  name : String
  first : TypeKind
  second : TypeKind
deriving DecidableEq, Repr

/-- The wording of a repeated definition. -/
def Duplicate.message (d : Duplicate) : String :=
  "duplicate type " ++ d.name ++ " (defined as " ++ d.first.name ++ " and " ++ d.second.name ++ ")"

/-- Adds a definition under a new name. -/
def define (types : Schema) (name : String) (type : TypeDef) : Except Duplicate Schema :=
  match types.get? name with
  | some existing => .error ⟨name, existing.kind, type.kind⟩
  | none => .ok (types.insert name type)

/-- Adds definitions one after the other. -/
def defineAll (types : Schema) (defs : List (String × TypeDef)) : Except Duplicate Schema :=
  defs.foldlM (fun types d => types.define d.1 d.2) types

/-- The name that a reference stands for: itself if it is known, else its
completion by the namespace if that is known, else itself. -/
def qualifyName (known : List String) (scope name : String) : String :=
  if scope = "" || known.contains name then name
  else
    let candidate := scope ++ "." ++ name
    if known.contains candidate then candidate else name

/-- The field type with its reference qualified. -/
def qualifyType (known : List String) (scope : String) : FieldType → FieldType
  | .vector element => .vector (qualifyType known scope element)
  | .named name => .named (qualifyName known scope name)
  | t => t

/-- The definition with its references qualified. -/
def qualifyDef (known : List String) (d : TypeDef) : TypeDef :=
  { d with fields := d.fields.map fun f => { f with type := qualifyType known d.scope f.type } }

/-- The schema with all references qualified. -/
def qualify (types : Schema) : Schema :=
  types.map (qualifyDef types.names)

/-- The schema that these definitions form. -/
def ofDefinitions (defs : List (String × TypeDef)) : Except Duplicate Schema :=
  (defineAll {} defs).map qualify

/-- The schema of one text. -/
def parse (text : String) : Except Duplicate Schema :=
  ofDefinitions (definitionsIn text)

end Bindery.Schema
