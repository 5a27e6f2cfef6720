import Bindery.Abi.Layout
import Bindery.Api.Basic
import Bindery.Code.Line

/-!
# Type definitions of the C header

The header defines an opaque pointer for each handle and a C type for each schema
type: first enumerations, then structs, then tables, each in name order.
-/

namespace Bindery.Abi

/-- The C spelling of a field's type. -/
def fieldC : FieldType → String
  | .primitive p => p.row.c
  | .string => "const char*"
  | .vector element => "const " ++ fieldC element ++ "*"
  | .named name => Naming.cTypeName name

/-- The types and names that a field declares; a vector also declares its count. -/
def fieldMembers (f : Field) : List (String × String) :=
  (fieldC f.type, f.name) ::
    if f.type.isVector then [("uint32_t", countName f.name)] else []

/-- The declarations of a field. -/
def fieldDeclarations (f : Field) : List String :=
  (fieldMembers f).map fun m => m.1 ++ " " ++ m.2

/-- The opaque pointer of a handle. -/
def handleTypedef (h : Handle) : Line :=
  "typedef struct " ++ Naming.handleStructTag h.name ++ "* " ++ Naming.handleTypedef h.name ++ ";"

/-- The opaque pointers of the handles. -/
def handleTypedefs (handles : List Handle) : List Line :=
  handles.map handleTypedef ++ if handles.isEmpty then [] else [Line.blank]

/-- The schema types in the order of their C definitions. -/
def typedefOrder (types : Schema) : List (String × TypeDef) :=
  types.ofKind .enum ++ types.records

/-- The values of an enumeration, all but the last with a comma. -/
def enumeratorLines (cName : String) : List EnumValue → List Line
  | [] => []
  | [v] => [cName ++ "_" ++ v.name ++ " = " ++ toString v.value]
  | v :: w :: rest =>
    (cName ++ "_" ++ v.name ++ " = " ++ toString v.value ++ "," : String)
      :: enumeratorLines cName (w :: rest)

/-- The C definition of an enumeration or a record. -/
def typedefLines (name : String) (d : TypeDef) : List Line :=
  let cName := Naming.cTypeName name
  let close := "\x7d " ++ cName ++ ";"
  if d.isEnum then
    Code.enclosed "typedef enum \x7b" close (enumeratorLines cName d.values) ++ [Line.blank]
  else
    Code.enclosed ("typedef struct " ++ cName ++ " \x7b") close
      ((d.fields.flatMap fieldDeclarations).map fun decl => (decl ++ ";" : String))
      ++ [Line.blank]

/-- The C definitions of all schema types. -/
def schemaTypedefs (types : Schema) : List Line :=
  (typedefOrder types).flatMap fun e => typedefLines e.1 e.2

end Bindery.Abi
