import Bindery.Schema.Unvisited
import Bindery.TypeRef

/-!
# Record layout in linear memory

On 32-bit WebAssembly a record lies in memory field after field. A scalar has its
own size and alignment, texts and vectors are pointers, a vector is followed by
its count, an enumeration takes four bytes, and a nested record lies inline. Each
slot starts at the least multiple of its alignment that is free, and the whole is
rounded up to the largest alignment.

A record that contains itself by value has no layout. The recursion keeps the
names it is inside of, and ends because each of them is a name of the schema.
-/

namespace Bindery.Abi

/-- The size of a pointer. -/
def pointerSize : Nat := 4

/-! ### Slots -/

/-- What occupies a slot. -/
inductive SlotKind where
  | primitive (p : Primitive)
  | string
  /-- The data of a vector, or a reference that is not looked through. -/
  | pointer
  /-- The number of elements of a vector. -/
  | count
  | enum (p : Primitive)
  /-- A record inline. -/
  | record (name : String)
deriving DecidableEq, Repr

/-- Something to be placed. -/
structure Part where
  name : String
  kind : SlotKind
  size : Nat
  align : Nat
deriving DecidableEq, Repr

/-- A part in its place. -/
structure Slot extends Part where
  offset : Nat
deriving DecidableEq, Repr

/-- A record in memory. -/
structure Layout where
  name : String
  size : Nat
  align : Nat
  slots : List Slot
deriving DecidableEq, Repr

/-- The first slot with this name. -/
def Layout.slot? (l : Layout) (name : String) : Option Slot :=
  l.slots.find? fun s => s.name == name

/-! ### Placing

Sizes and offsets are numbers without a bound here. An address has 32 bits, so they stand for words
as long as the record takes no more room than there are addresses; a larger one cannot be placed
with words at all (`place32?_eq`). -/

/-- The least multiple of `a` that is at least `n`. -/
def alignUp (n a : Nat) : Nat := (n + a - 1) / a * a

/-- Places parts one after the other. -/
def placeFrom : Nat → List Part → List Slot
  | _, [] => []
  | offset, p :: rest =>
    let start := alignUp offset p.align
    { p with offset := start } :: placeFrom (start + p.size) rest

/-- Where the last part ends. -/
def endFrom : Nat → List Part → Nat
  | offset, [] => offset
  | offset, p :: rest => endFrom (alignUp offset p.align + p.size) rest

/-- The largest alignment. -/
def maxAlign (parts : List Part) : Nat :=
  parts.foldl (fun m p => max m p.align) 1

/-- The record with these parts. A record without any takes one pointer. -/
def place (name : String) (parts : List Part) : Layout where
  name
  size := if endFrom 0 parts = 0 then pointerSize else alignUp (endFrom 0 parts) (maxAlign parts)
  align := if parts.isEmpty then pointerSize else maxAlign parts
  slots := placeFrom 0 parts

/-! ### Records -/

/-- Why a type has no layout. -/
inductive LayoutError where
  | missingType (name : String)
  | cycle (name : String)
  | notARecord (name : String) (kind : TypeKind)
deriving DecidableEq, Repr

/-- The wording. -/
def LayoutError.message : LayoutError → String
  | missingType name => "type " ++ name ++ " not found in resolved schemas"
  | cycle name => "type " ++ name ++ " contains itself by value"
  | notARecord name kind =>
    "type " ++ name ++ " is a " ++ kind.name ++ ", not a struct or table"

/-- The name of the count that goes with a vector. -/
def countName (vector : String) : String := vector ++ "_count"

/-- A part that is a pointer. -/
def pointerPart (name : String) (kind : SlotKind) : Part := ⟨name, kind, pointerSize, pointerSize⟩

/-- A part that is a scalar. -/
def scalarPart (name : String) (kind : SlotKind) (p : Primitive) : Part :=
  ⟨name, kind, p.row.size, p.row.size⟩

mutual

/-- The layout of a record inside the records `visiting`. -/
def layoutWithin (types : Schema) (visiting : List String) (name : String) :
    Except LayoutError Layout :=
  match _h : types.get? name with
  | none => .error (.missingType name)
  | some d =>
    if !d.isRecord then .error (.notARecord name d.kind)
    else if _hv : visiting.contains name then .error (.cycle name)
    else (partsWithin types (name :: visiting) d.fields).map (place name)
termination_by (types.unvisited visiting, 0)
decreasing_by
  exact Prod.Lex.left _ _ (Schema.unvisited_cons_lt _h (by simpa using _hv))

/-- The parts of these fields inside the records `visiting`. -/
def partsWithin (types : Schema) (visiting : List String) :
    List Field → Except LayoutError (List Part)
  | [] => .ok []
  | f :: rest => do
    let parts ←
      match f.type with
      | .primitive p => pure [scalarPart f.name (.primitive p) p]
      | .string => pure [pointerPart f.name .string]
      | .vector _ => pure [pointerPart f.name .pointer, pointerPart (countName f.name) .count]
      | .named n =>
        if types.isEnum n then
          pure [scalarPart f.name (.enum Schema.enumScalar) Schema.enumScalar]
        else if types.isRecord n then
          (layoutWithin types visiting n).map fun l => [⟨f.name, .record n, l.size, l.align⟩]
        else pure [pointerPart f.name .pointer]
    let others ← partsWithin types visiting rest
    return parts ++ others
termination_by fields => (types.unvisited visiting, fields.length)

end

/-- The layout of a struct or table. -/
def layout (types : Schema) (name : String) : Except LayoutError Layout :=
  layoutWithin types [] name

/-- The bytes that a value of a type takes where a result is stored. -/
def valueSize (types : Schema) (ty : String) : Except LayoutError Nat :=
  match TypeRef.ofString? ty with
  | some (.primitive p) => .ok p.row.size
  | some (.qualified name) =>
    match types.get? name with
    | none => .error (.missingType name)
    | some d =>
      if d.isEnum then .ok Schema.enumScalar.row.size else (layout types name).map (·.size)
  | _ => .ok pointerSize

/-- Whether a type is a struct or table of the schema. -/
def isRecordType (types : Schema) (ty : String) : Bool :=
  match TypeRef.ofString? ty with
  | some (.qualified name) => types.isRecord name
  | _ => false

end Bindery.Abi
