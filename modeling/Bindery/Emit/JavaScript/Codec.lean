import Bindery.Abi.Layout
import Bindery.Emit.Context

/-!
# Records in linear memory, seen from JavaScript

For each record there is a function that reads an object from an address and one
that writes it there. A codec is first a list of accesses, field by field with
their offsets, and then code. Fields that name neither an enumeration nor a record
are left alone.
-/

namespace Bindery.JavaScript

/-! ### Names -/

/-- The reserved words. -/
def keywords : List String :=
  ["await", "break", "case", "catch", "class", "const", "continue", "debugger", "default",
    "delete", "do", "else", "enum", "export", "extends", "false", "finally", "for", "function",
    "if", "import", "in", "instanceof", "let", "new", "null", "return", "static", "super",
    "switch", "this", "throw", "true", "try", "typeof", "var", "void", "while", "with", "yield"]

/-- A name in JavaScript: camel case, with an underscore behind it when it is
reserved. -/
def identifier (name : String) : String :=
  let camel := Naming.camelCase name
  if keywords.contains camel then camel ++ "_" else camel

/-- The fault of a type without a layout. -/
def layoutFault (e : Abi.LayoutError) : Fault := .internal e.message

/-- An address at an offset from another. -/
def addressAt (base : String) (offset : Nat) : String :=
  if offset = 0 then base else base ++ " + " ++ toString offset

/-! ### Accesses -/

/-- What lies at an address. -/
inductive Cell where
  | scalar (p : Primitive)
  /-- The address of a text. -/
  | text
  | record (name : String)
deriving DecidableEq, Repr

namespace Cell

/-- The expression that reads it. -/
def read (addr : String) : Cell → String
  | scalar .bool => "_view().getUint8(" ++ addr ++ ") !== 0"
  | scalar p => "_view().get" ++ p.row.dataView ++ "(" ++ addr ++ ", true)"
  | text => "_decodeString(_view().getUint32(" ++ addr ++ ", true))"
  | record q => "_read" ++ Naming.flatTypeName q ++ "(" ++ addr ++ ")"

/-- The statement that writes a value to it. -/
def write (addr value : String) : Cell → String
  | scalar .bool => "_view().setUint8(" ++ addr ++ ", " ++ value ++ " ? 1 : 0);"
  | scalar p => "_view().set" ++ p.row.dataView ++ "(" ++ addr ++ ", " ++ value ++ ", true);"
  | text => "_view().setUint32(" ++ addr ++ ", _allocString(" ++ value ++ ", allocs), true);"
  | record q => "_write" ++ Naming.flatTypeName q ++ "(" ++ value ++ ", " ++ addr ++ ", allocs);"

/-- The cell of a schema type by name; unions and unknown names have none. -/
def ofName? (types : Schema) (name : String) : Option Cell :=
  match types.get? name with
  | none => none
  | some d =>
    if d.isEnum then some (scalar Schema.enumScalar)
    else if d.isRecord then some (record name)
    else none

/-- The cell of a field or an element. -/
def ofField? (types : Schema) : FieldType → Option Cell
  | .primitive p => some (scalar p)
  | .string => some text
  | .named name => ofName? types name
  | .vector _ => none

/-- The bytes from one element to the next. -/
def stride (types : Schema) : Cell → Except Fault Nat
  | scalar p => .ok p.row.size
  | text => .ok Abi.pointerSize
  | record q => ((Abi.layout types q).map (·.size)).mapError layoutFault

end Cell

/-- How one field is read and written. -/
inductive Access where
  | plain (field : String) (offset : Nat) (cell : Cell)
  | vector (field : String) (offset countOffset stride : Nat) (element : Cell)
deriving DecidableEq, Repr

namespace Access

/-- The access to a field in a layout, if it has one. -/
def ofField (types : Schema) (l : Abi.Layout) (f : Field) : Except Fault (Option Access) :=
  match l.slot? f.name with
  | none => .ok none
  | some slot =>
    match f.type with
    | .vector inner =>
      match Cell.ofField? types inner with
      | none => .ok none
      | some element =>
        match (l.slot? (Abi.countName f.name)).filter (·.kind = .count) with
        | none => .error (.internal (l.name ++ "." ++ f.name ++ " has no count slot"))
        | some count => do
          let stride ← element.stride types
          return some (.vector f.name slot.offset count.offset stride element)
    | other => .ok ((Cell.ofField? types other).map (.plain f.name slot.offset))

/-- The entry of the object that is read. -/
def readText : Access → String
  | plain f offset cell => identifier f ++ ": " ++ cell.read (addressAt "ptr" offset) ++ ","
  | vector f offset count stride element =>
    identifier f ++ ": _readArray(_view().getUint32(" ++ addressAt "ptr" offset
      ++ ", true), _view().getUint32(" ++ addressAt "ptr" count ++ ", true), " ++ toString stride
      ++ ", (p) => " ++ element.read "p" ++ "),"

/-- The statements that write the field of an object. -/
def writeText : Access → List String
  | plain f offset cell => [cell.write (addressAt "ptr" offset) ("value." ++ identifier f)]
  | vector f offset count stride element =>
    let key := identifier f
    ["_view().setUint32(" ++ addressAt "ptr" offset ++ ", _writeArray(value." ++ key ++ ", "
        ++ toString stride ++ ", (item, p) => \x7b " ++ element.write "p" "item"
        ++ " \x7d, allocs), true);",
      "_view().setUint32(" ++ addressAt "ptr" count ++ ", value." ++ key ++ "?.length ?? 0, true);"]

end Access

/-! ### Codecs -/

/-- How a record is read and written. -/
structure Codec where
  record : String
  accesses : List Access
deriving DecidableEq, Repr

namespace Codec

/-- The codec of a record with its layout. -/
def ofLayout (types : Schema) (d : TypeDef) (l : Abi.Layout) : Except Fault Codec := do
  let accesses ← d.fields.mapM (Access.ofField types l)
  return { record := l.name, accesses := accesses.filterMap id }

/-- The codecs of all records. Every record must have a layout before any codec is
made. -/
def all (types : Schema) : Except Fault (List Codec) := do
  let layouts ← types.records.mapM fun (name, d) => do
    return (d, ← (Abi.layout types name).mapError layoutFault)
  layouts.mapM fun (d, l) => ofLayout types d l

/-- The lines of a codec. -/
def lines (c : Codec) : List Line :=
  let flat := Naming.flatTypeName c.record
  Code.block ("function _read" ++ flat ++ "(ptr)")
      (Code.blockWith "return" "\x7d;" (Code.lines (c.accesses.map Access.readText)))
    ++ [Line.blank]
    ++ Code.block ("function _write" ++ flat ++ "(value, ptr, allocs)")
      (Code.lines (c.accesses.flatMap Access.writeText))
    ++ [Line.blank]

end Codec

/-- The lines of all codecs; without records there are none. -/
def codecLines (codecs : List Codec) : List Line :=
  if codecs.isEmpty then []
  else [Code.comment "Records, at their wasm32 layout"] ++ codecs.flatMap Codec.lines

end Bindery.JavaScript
