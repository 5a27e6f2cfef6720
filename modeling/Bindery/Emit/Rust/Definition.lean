import Bindery.Abi.Layout
import Bindery.Emit.Context
import Bindery.Emit.Rust.Syntax

/-!
# Definitions of schema types

Records have the layout of C, a vector as a pointer and a count, and enumerations
are as wide as those of the header.
-/

namespace Bindery.Rust

/-- The type of a field. -/
def fieldType : FieldType → Except Fault Ty
  | .primitive p => .ok (.primitive p)
  | .string => .ok (.pointer false .cChar)
  | .vector element => do return .pointer false (← fieldType element)
  | .named name => do return .schema (← typeName name)

/-- What a field declares; a vector also declares its count. -/
def fieldBindings (f : Field) : Except Fault (List Binding) := do
  let name ← chosenName f.name
  let type ← fieldType f.type
  let count ← if f.type.isVector then do pure [⟨← literalName (Abi.countName f.name), .primitive .uint32⟩]
    else pure []
  return ⟨name, type⟩ :: count

/-- A struct or an enumeration. -/
inductive Definition where
  | enumeration (name : String) (values : List (String × Int))
  /-- A record; one without references may be copied. -/
  | record (name : String) (isPlain : Bool) (fields : List Binding)
deriving DecidableEq, Repr

namespace Definition

/-- The definition of an enumeration. -/
def ofEnum (name : String) (d : TypeDef) : Except Fault Definition := do
  let name ← typeName name
  let values ← d.values.mapM fun v => do return (← chosenName v.name, v.value)
  return enumeration name values

/-- The definition of a record. -/
def ofRecord (name : String) (d : TypeDef) : Except Fault Definition := do
  let name ← typeName name
  let fields ← d.fields.mapM fieldBindings
  return record name (d.kind = .struct) fields.flatten

/-- The names that are defined. -/
def names : Definition → List String
  | enumeration name values => name :: values.map (·.1)
  | record name _ _ => [name]

/-- The text of the definition. -/
def doc : Definition → List Doc
  | enumeration name values =>
    under ["#[repr(" ++ Schema.enumScalar.row.rust ++ ")]",
        "#[derive(Debug, Clone, Copy, PartialEq, Eq)]"]
      (braced [.text ("pub enum " ++ name)]
        (values.map fun (v, n) => [.text (v ++ " = " ++ toString n ++ ",")]))
  | record name isPlain fields =>
    under ["#[repr(C)]", if isPlain then "#[derive(Debug, Clone, Copy)]" else "#[derive(Debug)]"]
      (braced [.text ("pub struct " ++ name)]
        (fields.map fun f => .text "pub " :: f.doc ++ [.text ","]))

end Definition

/-- The definitions of all schema types: enumerations, structs, tables. -/
def definitions (types : Schema) : Except Fault (List Definition) := do
  let enums ← (types.ofKind .enum).mapM fun e => Definition.ofEnum e.1 e.2
  let records ← types.records.mapM fun e => Definition.ofRecord e.1 e.2
  let ds := enums ++ records
  checkDefined (ds.flatMap Definition.names)
  return ds

end Bindery.Rust
