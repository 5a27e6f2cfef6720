/-!
# Primitive types

The eleven scalar types that cross the boundary, and how each language spells
them. A primitive is a constructor; its spellings are one row of a table, so a
generator asks the row and never compares names.
-/

namespace Bindery

/-- A scalar type. -/
inductive Primitive where
  | int8 | int16 | int32 | int64
  | uint8 | uint16 | uint32 | uint64
  | float32 | float64 | bool
deriving DecidableEq, Repr

namespace Primitive

/-- Every primitive, in table order. -/
def all : List Primitive :=
  [int8, int16, int32, int64, uint8, uint16, uint32, uint64, float32, float64, bool]

/-- The spellings of one primitive. -/
structure Row where
  /-- In descriptions. -/
  canonical : String
  /-- Further spellings accepted in schemas. -/
  aliases : List String
  c : String
  rust : String
  go : String
  /-- The C type as seen from Go. -/
  cgo : String
  kotlin : String
  kotlinArray : String
  jni : String
  jniArray : String
  /-- The type descriptor of the Java virtual machine. -/
  descriptor : String
  /-- The infix of the array accessors of the native interface. -/
  arrayAccessor : String
  swift : String
  /-- Size and alignment in bytes on 32-bit WebAssembly. -/
  size : Nat
  /-- The suffix of the JavaScript `DataView` accessors. -/
  dataView : String
  typedArray : String
deriving Repr

/-- The table of spellings. -/
def row : Primitive → Row
  | int8 => ⟨"int8", ["byte"], "int8_t", "i8", "int8", "C.int8_t", "Byte", "ByteArray",
      "jbyte", "jbyteArray", "B", "Byte", "Int8", 1, "Int8", "Int8Array"⟩
  | int16 => ⟨"int16", ["short"], "int16_t", "i16", "int16", "C.int16_t", "Short", "ShortArray",
      "jshort", "jshortArray", "S", "Short", "Int16", 2, "Int16", "Int16Array"⟩
  | int32 => ⟨"int32", ["int"], "int32_t", "i32", "int32", "C.int32_t", "Int", "IntArray",
      "jint", "jintArray", "I", "Int", "Int32", 4, "Int32", "Int32Array"⟩
  | int64 => ⟨"int64", ["long"], "int64_t", "i64", "int64", "C.int64_t", "Long", "LongArray",
      "jlong", "jlongArray", "J", "Long", "Int64", 8, "BigInt64", "BigInt64Array"⟩
  | uint8 => ⟨"uint8", ["ubyte"], "uint8_t", "u8", "uint8", "C.uint8_t", "Byte", "ByteArray",
      "jbyte", "jbyteArray", "B", "Byte", "UInt8", 1, "Uint8", "Uint8Array"⟩
  | uint16 => ⟨"uint16", ["ushort"], "uint16_t", "u16", "uint16", "C.uint16_t", "Short",
      "ShortArray", "jshort", "jshortArray", "S", "Short", "UInt16", 2, "Uint16", "Uint16Array"⟩
  | uint32 => ⟨"uint32", ["uint"], "uint32_t", "u32", "uint32", "C.uint32_t", "Int", "IntArray",
      "jint", "jintArray", "I", "Int", "UInt32", 4, "Uint32", "Uint32Array"⟩
  | uint64 => ⟨"uint64", ["ulong"], "uint64_t", "u64", "uint64", "C.uint64_t", "Long", "LongArray",
      "jlong", "jlongArray", "J", "Long", "UInt64", 8, "BigUint64", "BigUint64Array"⟩
  | float32 => ⟨"float32", ["float"], "float", "f32", "float32", "C.float", "Float", "FloatArray",
      "jfloat", "jfloatArray", "F", "Float", "Float", 4, "Float32", "Float32Array"⟩
  | float64 => ⟨"float64", ["double"], "double", "f64", "float64", "C.double", "Double",
      "DoubleArray", "jdouble", "jdoubleArray", "D", "Double", "Double", 8, "Float64",
      "Float64Array"⟩
  | bool => ⟨"bool", [], "bool", "bool", "bool", "C.bool", "Boolean", "BooleanArray",
      "jboolean", "jbooleanArray", "Z", "Boolean", "Bool", 1, "Uint8", "Uint8Array"⟩

/-- The spelling in descriptions. -/
def name (p : Primitive) : String := p.row.canonical

/-- The primitive with this spelling in descriptions. -/
def ofName? (s : String) : Option Primitive :=
  all.find? fun p => p.name == s

/-- The primitive with this spelling in schemas, aliases included. -/
def ofSchema? (s : String) : Option Primitive :=
  ofName? s <|> all.find? fun p => p.row.aliases.contains s

/-- The canonical spelling of a schema scalar; any other name is unchanged. -/
def normalize (s : String) : String :=
  match ofSchema? s with
  | some p => p.name
  | none => s

/-- Whether JavaScript sees the primitive as a big integer: the 64-bit integers. -/
def isBigInt (p : Primitive) : Bool := p = int64 || p = uint64

/-- Whether the primitive may be the element of a buffer: every one but `bool`. -/
def isBufferElement (p : Primitive) : Bool := p ≠ bool

end Primitive

end Bindery
