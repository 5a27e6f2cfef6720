import Bindery.Keyed
import Bindery.Vocabulary.Primitive

/-!
# Schema types

A schema defines enumerations, structs, tables and unions under qualified names.
Structs and tables are records: they have fields and cross the boundary alike.
A field is a scalar, a text, a vector, or a reference to another type by name; a
name that no type has is still a reference, to something opaque.
-/

namespace Bindery

/-- What a definition defines. -/
inductive TypeKind where
  | enum | struct | table | union
deriving DecidableEq, Repr

/-- The keyword of the definition. -/
def TypeKind.name : TypeKind → String
  | enum => "enum" | struct => "struct" | table => "table" | union => "union"

/-- A value of an enumeration. Its number has 64 bits where it is written down, or counted from such
a number without passing the greatest one. -/
structure EnumValue where
  name : String
  value : Int
deriving DecidableEq, Repr

/-- The type of a field. -/
inductive FieldType where
  | primitive (p : Primitive)
  | string
  | vector (element : FieldType)
  /-- A reference to another type by name. -/
  | named (name : String)
deriving DecidableEq, Repr

/-- The spelling of the type. -/
def FieldType.text : FieldType → String
  | primitive p => p.name
  | string => "string"
  | vector element => "[" ++ element.text ++ "]"
  | named name => name

/-- Whether the type is a vector. -/
def FieldType.isVector : FieldType → Bool
  | vector _ => true
  | _ => false

/-- A field of a record. -/
structure Field where
  name : String
  type : FieldType
deriving DecidableEq, Repr

/-- The definition of a type. -/
structure TypeDef where
  kind : TypeKind
  /-- The namespace of the definition, empty when there is none. -/
  scope : String := ""
  /-- The scalar named by an enumeration. -/
  base : Option Primitive := none
  values : List EnumValue := []
  fields : List Field := []
deriving DecidableEq, Repr

namespace TypeDef

/-- The scalar behind an enumeration. -/
def enumBase (d : TypeDef) : Primitive := d.base.getD .int32

/-- Whether the definition is an enumeration. -/
def isEnum (d : TypeDef) : Bool := d.kind = .enum

/-- Whether the definition is a record. -/
def isRecord (d : TypeDef) : Bool := d.kind = .struct || d.kind = .table

end TypeDef

/-- Type definitions by qualified name, in name order. -/
abbrev Schema := Keyed TypeDef

namespace Schema

/-- An enumeration is an `int` of C whatever scalar it names. -/
def enumScalar : Primitive := .int32

/-- The definitions of one kind, in name order. -/
def ofKind (types : Schema) (kind : TypeKind) : List (String × TypeDef) :=
  types.entries.filter fun e => e.2.kind = kind

/-- Whether a name is that of an enumeration. -/
def isEnum (types : Schema) (name : String) : Bool :=
  (types.get? name).any TypeDef.isEnum

/-- Whether a name is that of a record. -/
def isRecord (types : Schema) (name : String) : Bool :=
  (types.get? name).any TypeDef.isRecord

/-- The records: structs, then tables, each in name order. -/
def records (types : Schema) : List (String × TypeDef) :=
  types.ofKind .struct ++ types.ofKind .table

end Schema

end Bindery
