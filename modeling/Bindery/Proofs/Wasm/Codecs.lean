import Bindery.Proofs.Layout.Records
import Bindery.Proofs.Wasm.Convention

/-!
# JavaScript and Go agree on records in memory

Both sides read and write a record field by field at the offsets of its layout, each with
code of its own: JavaScript through the accessors of a `DataView`, Go through pointers.
What the code of either side does to memory is told by a `Storage`, the bytes of one value
and how they are understood, and the texts of both sides are tied to it
(`JavaScriptLoads`, `GoLoads` and their twins that store). What a codec does with a field
is a `Touch`: where the storage lies, and for a vector also where the count lies and how
far the elements are apart.

The touch of a field is read off the layout (`Touches`). JavaScript has an access exactly
for what touches a field (`exists_touch`), and Go performs whatever touches it
(`performs_of_touches`); so both codecs are the same list of touches (`exists_sameTouches`).

Slots are found by name, not by position. If the names of the slots are distinct, the
slot that is found is that of the field itself (`ownSlots_of_touches`).
-/

namespace Bindery

open JavaScript (Cell)
open Go (Value WasmAccess WasmCodec)

namespace Wasm

/-! ### Bytes -/

/-- How the bytes of a number are understood. -/
inductive Reading where
  | signed | unsigned | float
deriving DecidableEq, Repr

/-- A number in memory. -/
structure Format where
  /-- The number of bytes. -/
  width : Nat
  reading : Reading
deriving DecidableEq, Repr

/-- The format that an accessor of a `DataView` works on, by the suffix of its name. -/
def dataViewFormat? : String → Option Format
  | "Int8" => some ⟨1, .signed⟩
  | "Int16" => some ⟨2, .signed⟩
  | "Int32" => some ⟨4, .signed⟩
  | "BigInt64" => some ⟨8, .signed⟩
  | "Uint8" => some ⟨1, .unsigned⟩
  | "Uint16" => some ⟨2, .unsigned⟩
  | "Uint32" => some ⟨4, .unsigned⟩
  | "BigUint64" => some ⟨8, .unsigned⟩
  | "Float32" => some ⟨4, .float⟩
  | "Float64" => some ⟨8, .float⟩
  | _ => none

/-- The format of a numeric type of Go. -/
def goFormat? : String → Option Format
  | "int8" => some ⟨1, .signed⟩
  | "int16" => some ⟨2, .signed⟩
  | "int32" => some ⟨4, .signed⟩
  | "int64" => some ⟨8, .signed⟩
  | "uint8" | "byte" => some ⟨1, .unsigned⟩
  | "uint16" => some ⟨2, .unsigned⟩
  | "uint32" => some ⟨4, .unsigned⟩
  | "uint64" => some ⟨8, .unsigned⟩
  | "float32" => some ⟨4, .float⟩
  | "float64" => some ⟨8, .float⟩
  | _ => none

/-- What lies at an address. -/
inductive Storage where
  | number (format : Format)
  /-- A truth value, in one byte. -/
  | truth
  /-- The address of a text, in four bytes. -/
  | text
  /-- A record, left to its own codec. -/
  | record (name : String)
deriving DecidableEq, Repr

namespace Storage

/-- What a primitive is in memory. -/
def ofPrimitive : Primitive → Storage
  | .int8 => number ⟨1, .signed⟩
  | .int16 => number ⟨2, .signed⟩
  | .int32 => number ⟨4, .signed⟩
  | .int64 => number ⟨8, .signed⟩
  | .uint8 => number ⟨1, .unsigned⟩
  | .uint16 => number ⟨2, .unsigned⟩
  | .uint32 => number ⟨4, .unsigned⟩
  | .uint64 => number ⟨8, .unsigned⟩
  | .float32 => number ⟨4, .float⟩
  | .float64 => number ⟨8, .float⟩
  | .bool => truth

/-- What a field or an element is in memory. A name of neither an enumeration nor a record
is nothing, and so is a vector, which is looked at for its elements only. -/
def ofField? (types : Schema) : FieldType → Option Storage
  | .primitive p => some (ofPrimitive p)
  | .string => some text
  | .named n =>
    if types.isEnum n then some (number ⟨4, .signed⟩)
    else if types.isRecord n then some (record n) else none
  | .vector _ => none

/-- What a field holds: its own storage, or that of its elements. -/
def held? (types : Schema) : FieldType → Option Storage
  | .vector element => ofField? types element
  | other => ofField? types other

/-- The bytes from one element to the next. -/
inductive Spans (types : Schema) : Storage → Nat → Prop where
  | number (format : Format) : Spans types (number format) format.width
  | truth : Spans types truth 1
  | text : Spans types text 4
  | record {name : String} {l : Abi.Layout} (layout : Abi.layout types name = .ok l) :
      Spans types (record name) l.size

theorem Spans.unique {types : Schema} {s : Storage} {a b : Nat} (ha : Spans types s a)
    (hb : Spans types s b) : a = b := by
  cases ha with
  | number _ | truth | text => cases hb; rfl
  | record layout =>
    cases hb with
    | record layout' => rw [Except.ok.inj (layout.symm.trans layout')]

/-- A primitive spans as many bytes as the table says. -/
theorem spans_ofPrimitive (types : Schema) (p : Primitive) :
    Spans types (ofPrimitive p) p.row.size := by
  cases p with
  | bool => exact .truth
  | _ => exact .number _

end Storage

/-! ### Code that accesses memory -/

/-- An expression of JavaScript that reads a storage. -/
inductive JavaScriptLoads (addr : String) : Storage → String → Prop where
  | number {suffix : String} {format : Format} (format_eq : dataViewFormat? suffix = some format) :
      JavaScriptLoads addr (.number format) ("_view().get" ++ suffix ++ "(" ++ addr ++ ", true)")
  | truth : JavaScriptLoads addr .truth ("_view().getUint8(" ++ addr ++ ") !== 0")
  | text : JavaScriptLoads addr .text ("_decodeString(_view().getUint32(" ++ addr ++ ", true))")
  | record (n : String) :
      JavaScriptLoads addr (.record n) ("_read" ++ Naming.flatTypeName n ++ "(" ++ addr ++ ")")

/-- A statement of JavaScript that writes a value to a storage. -/
inductive JavaScriptStores (addr value : String) : Storage → String → Prop where
  | number {suffix : String} {format : Format} (format_eq : dataViewFormat? suffix = some format) :
      JavaScriptStores addr value (.number format)
        ("_view().set" ++ suffix ++ "(" ++ addr ++ ", " ++ value ++ ", true);")
  | truth : JavaScriptStores addr value .truth
      ("_view().setUint8(" ++ addr ++ ", " ++ value ++ " ? 1 : 0);")
  | text : JavaScriptStores addr value .text
      ("_view().setUint32(" ++ addr ++ ", _allocString(" ++ value ++ ", allocs), true);")
  | record (n : String) : JavaScriptStores addr value (.record n)
      ("_write" ++ Naming.flatTypeName n ++ "(" ++ value ++ ", " ++ addr ++ ", allocs);")

/-- An expression of Go that reads a storage. A number may be converted to a named type. -/
inductive GoLoads (addr : String) : Storage → String → Prop where
  | number {type : String} {format : Format} (format_eq : goFormat? type = some format) :
      GoLoads addr (.number format) ("*(*" ++ type ++ ")(unsafe.Pointer(" ++ addr ++ "))")
  | converted {type : String} {format : Format} (name : String)
      (format_eq : goFormat? type = some format) :
      GoLoads addr (.number format)
        (name ++ "(*(*" ++ type ++ ")(unsafe.Pointer(" ++ addr ++ ")))")
  | truth : GoLoads addr .truth ("*(*byte)(unsafe.Pointer(" ++ addr ++ ")) != 0")
  | text : GoLoads addr .text
      ("_cstring(uintptr(" ++ ("*(*uint32)(unsafe.Pointer(" ++ addr ++ "))") ++ "))")
  | record (n : String) :
      GoLoads addr (.record n) ("_read" ++ Naming.flatTypeName n ++ "(" ++ addr ++ ")")

/-- A statement of Go that writes an expression to a storage. -/
inductive GoStores (addr source : String) : Storage → String → Prop where
  | number {type : String} {format : Format} (format_eq : goFormat? type = some format) :
      GoStores addr source (.number format)
        ("*(*" ++ type ++ ")(unsafe.Pointer(" ++ addr ++ ")) = " ++ source)
  | converted {type : String} {format : Format} (format_eq : goFormat? type = some format) :
      GoStores addr source (.number format)
        ("*(*" ++ type ++ ")(unsafe.Pointer(" ++ addr ++ ")) = " ++ type ++ "(" ++ source ++ ")")
  | truth : GoStores addr source .truth
      ("*(*byte)(unsafe.Pointer(" ++ addr ++ ")) = byte(_b2u(" ++ source ++ "))")
  | text : GoStores addr source .text
      ("*(*uint32)(unsafe.Pointer(" ++ addr ++ "))" ++ " = _wasmString(key, " ++ source ++ ")")
  | record (n : String) : GoStores addr source (.record n)
      ("_write" ++ Naming.flatTypeName n ++ "(" ++ source ++ ", " ++ addr ++ ", key)")

/-- A cell of JavaScript that is read and written as a storage, wherever it lies. -/
structure CellHolds (types : Schema) (c : Cell) (s : Storage) : Prop where
  loads : ∀ addr, JavaScriptLoads addr s (c.read addr)
  stores : ∀ addr value, JavaScriptStores addr value s (c.write addr value)
  spans : ∀ n, c.stride types = .ok n → s.Spans types n

/-- A value of Go that is read and written as a storage, wherever it lies. -/
structure ValueHolds (types : Schema) (v : Value) (s : Storage) : Prop where
  loads : ∀ addr, GoLoads addr s (Go.readAt addr v)
  stores : ∀ addr source, GoStores addr source s (Go.writeAt addr source v)
  spans : ∀ n, Go.stride types v = .ok n → s.Spans types n

variable {types : Schema}

/-- A size that is found in a layout is that of the record. -/
theorem spans_record {name : String} {f : Abi.LayoutError → Fault} {n : Nat}
    (h : ((Abi.layout types name).map (·.size)).mapError f = .ok n) :
    (Storage.record name).Spans types n := by
  obtain ⟨l, hl, rfl⟩ := map_eq_ok_iff.mp (mapError_eq_ok_iff.mp h)
  exact .record hl

theorem cellHolds_scalar (p : Primitive) :
    CellHolds types (.scalar p) (.ofPrimitive p) := by
  have hspans : ∀ n, (Cell.scalar p).stride types = .ok n →
      (Storage.ofPrimitive p).Spans types n := by
    intro n hn
    obtain rfl := Except.ok.inj hn
    exact Storage.spans_ofPrimitive types p
  cases p with
  | bool => exact ⟨fun _ => .truth, fun _ _ => .truth, hspans⟩
  | _ => exact ⟨fun _ => .number rfl, fun _ _ => .number rfl, hspans⟩

theorem valueHolds_scalar (p : Primitive) :
    ValueHolds types (.scalar p) (.ofPrimitive p) := by
  have hspans : ∀ n, Go.stride types (.scalar p) = .ok n →
      (Storage.ofPrimitive p).Spans types n := by
    intro n hn
    obtain rfl := Except.ok.inj hn
    exact Storage.spans_ofPrimitive types p
  cases p with
  | bool => exact ⟨fun _ => .truth, fun _ _ => .truth, hspans⟩
  | _ => exact ⟨fun _ => .number rfl, fun _ _ => .number rfl, hspans⟩

/-- **JavaScript sorts fields by what they are in memory.** -/
theorem cell_ofField? (types : Schema) (t : FieldType) :
    Option.Rel (CellHolds types) (Cell.ofField? types t) (Storage.ofField? types t) := by
  -- A named type is an enum, a record, or nothing that a codec can hold.
  cases t with
  | primitive p => exact .some (cellHolds_scalar p)
  | string =>
    exact .some ⟨fun _ => .text, fun _ _ => .text, fun n hn => Except.ok.inj hn ▸ .text⟩
  | vector element => exact .none
  | named n =>
    rw [Cell.ofField?, Cell.ofName?_eq, Storage.ofField?]
    split
    · exact .some (cellHolds_scalar .int32)
    · split
      · exact .some ⟨fun _ => .record n, fun _ _ => .record n, fun _ hn => spans_record hn⟩
      · exact .none

/-- **Go sorts fields by what they are in memory.** -/
theorem value_ofScalar? (types : Schema) (t : FieldType) :
    Option.Rel (ValueHolds types) (Value.ofScalar? types t) (Storage.ofField? types t) := by
  cases t with
  | primitive p => exact .some (valueHolds_scalar p)
  | string =>
    exact .some ⟨fun _ => .text, fun _ _ => .text, fun n hn => Except.ok.inj hn ▸ .text⟩
  | vector element => exact .none
  | named n =>
    rw [Value.ofScalar?, Value.ofName?_eq, Storage.ofField?]
    split
    · -- an enumeration is an `int32` behind a named type
      exact .some ⟨fun _ => .converted _ rfl, fun _ _ => .converted rfl,
        fun n hn => Except.ok.inj hn ▸ .number _⟩
    · split
      · exact .some ⟨fun _ => .record n, fun _ _ => .record n, fun _ hn => spans_record hn⟩
      · exact .none

/-! ### Touches -/

/-- **What a codec does with a field.** -/
inductive Touch where
  | plain (field : String) (offset : Nat) (storage : Storage)
  | vector (field : String) (offset countOffset stride : Nat) (element : Storage)
deriving DecidableEq, Repr

/-- The touch of a field, at the slots with its names. -/
inductive Touches (types : Schema) (l : Abi.Layout) (f : Field) : Option Touch → Prop where
  /-- A field that holds nothing is left alone. -/
  | skipped (held : Storage.held? types f.type = none) : Touches types l f none
  | plain {s : Storage} {slot : Abi.Slot} (held : Storage.ofField? types f.type = some s)
      (slot_eq : l.slot? f.name = some slot) :
      Touches types l f (some (.plain f.name slot.offset s))
  | vector {element : FieldType} {s : Storage} {slot count : Abi.Slot} {stride : Nat}
      (type : f.type = .vector element) (held : Storage.ofField? types element = some s)
      (slot_eq : l.slot? f.name = some slot) (count_eq : l.slot? (f.name ++ "_count") = some count)
      (kind : count.kind = .count) (spans : s.Spans types stride) :
      Touches types l f (some (.vector f.name slot.offset count.offset stride s))

/-- An access of JavaScript that does what a touch says. -/
inductive JavaScriptPerforms (types : Schema) : Touch → JavaScript.Access → Prop where
  | plain {f : String} {offset : Nat} {s : Storage} {c : Cell} (holds : CellHolds types c s) :
      JavaScriptPerforms types (.plain f offset s) (.plain f offset c)
  | vector {f : String} {offset count stride : Nat} {s : Storage} {c : Cell}
      (holds : CellHolds types c s) :
      JavaScriptPerforms types (.vector f offset count stride s) (.vector f offset count stride c)

/-- An access of Go that does what a touch says. -/
inductive GoPerforms (types : Schema) : Touch → WasmAccess → Prop where
  | plain {f : String} {offset : Nat} {s : Storage} {v : Value} (holds : ValueHolds types v s) :
      GoPerforms types (.plain f offset s) (.plain f offset v)
  | vector {f : String} {offset count stride : Nat} {s : Storage} {v : Value}
      (holds : ValueHolds types v s) :
      GoPerforms types (.vector f offset count stride s) (.vector f offset count stride v)

theorem exists_of_rel_some {α β : Type} {R : α → β → Prop} {x : Option α} {b : β}
    (h : Option.Rel R x (some b)) : ∃ a, x = some a ∧ R a b := by
  cases h with
  | some hab => exact ⟨_, rfl, hab⟩

theorem eq_none_of_rel_none {α β : Type} {R : α → β → Prop} {x : Option α}
    (h : Option.Rel R x none) : x = none := by
  cases h
  rfl

/-- A field that is no vector is held by itself. -/
theorem held?_of_ne_vector {t : FieldType} (h : ∀ element, t ≠ .vector element) :
    Storage.held? types t = Storage.ofField? types t := by
  cases t with
  | vector element => exact absurd rfl (h element)
  | primitive p | string | named n => rfl

theorem ne_vector_of_ofField? {t : FieldType} {s : Storage}
    (h : Storage.ofField? types t = some s) (element : FieldType) : t ≠ .vector element := by
  rintro rfl
  cases h

/-- **JavaScript has an access exactly for what touches a field.** -/
theorem exists_touch {l : Abi.Layout} {f : Field} {slot : Abi.Slot}
    {a : Option JavaScript.Access} (hslot : l.slot? f.name = some slot)
    (h : JavaScript.Access.ofField types l f = .ok a) :
    ∃ t, Touches types l f t ∧ Option.Rel (JavaScriptPerforms types) t a := by
  rw [JavaScript.Access.ofField, hslot] at h
  dsimp only at h
  split at h
  · next element htype =>
    have hrel := cell_ofField? types element
    cases hs : Storage.ofField? types element with
    | none =>
      rw [hs] at hrel
      rw [eq_none_of_rel_none hrel] at h
      obtain rfl := Except.ok.inj h
      exact ⟨none, .skipped (by rw [htype]; exact hs), .none⟩
    | some s =>
      rw [hs] at hrel
      obtain ⟨c, hc, holds⟩ := exists_of_rel_some hrel
      rw [hc] at h
      dsimp only at h
      split at h
      · cases h
      · next count hcount =>
        -- the count that is found is one, or there would be no access
        obtain ⟨hcount, hkind⟩ := Option.filter_eq_some_iff.mp hcount
        obtain ⟨stride, hstride, ha⟩ := bind_eq_ok_iff.mp h
        obtain rfl := pure_eq_ok_iff.mp ha
        exact ⟨_, .vector htype hs hslot hcount (of_decide_eq_true hkind)
          (holds.spans stride hstride), .some (.vector holds)⟩
  · next hvector =>
    obtain rfl := Except.ok.inj h
    have hrel := cell_ofField? types f.type
    cases hs : Storage.ofField? types f.type with
    | none =>
      rw [hs] at hrel
      rw [eq_none_of_rel_none hrel]
      exact ⟨none, .skipped ((held?_of_ne_vector hvector).trans hs), .none⟩
    | some s =>
      rw [hs] at hrel
      obtain ⟨c, hc, holds⟩ := exists_of_rel_some hrel
      rw [hc]
      exact ⟨_, .plain hs hslot, .some (.plain holds)⟩

/-- The side of Go on a field that holds nothing. -/
theorem shape_eq_hidden {t : FieldType} (h : Storage.held? types t = none) :
    Go.Shape.ofField types t = .hidden := by
  -- What cannot be stored has no value on the Go side either.
  have hnone : ∀ u, Storage.ofField? types u = none → Value.ofScalar? types u = none := by
    intro u hu
    exact eq_none_of_rel_none (hu ▸ value_ofScalar? types u)
  cases t with
  | vector element =>
    rw [Go.Shape.ofField, hnone element h]
    rfl
  | named n =>
    have hvalue := hnone (.named n) h
    simp only [Go.Shape.ofField, hvalue]
    rfl
  | primitive p | string => cases h

/-- The side of Go on a vector. -/
theorem exists_shape_many {element : FieldType} {s : Storage}
    (h : Storage.ofField? types element = some s) :
    ∃ v, Go.Shape.ofField types (.vector element) = .many v ∧ ValueHolds types v s := by
  obtain ⟨v, hv, holds⟩ := exists_of_rel_some (h ▸ value_ofScalar? types element)
  refine ⟨v, ?_, holds⟩
  rw [Go.Shape.ofField, hv]
  rfl

/-- The side of Go on any other field. -/
theorem exists_shape_one {t : FieldType} {s : Storage} (h : Storage.ofField? types t = some s) :
    ∃ v, Go.Shape.ofField types t = .one v ∧ ValueHolds types v s := by
  obtain ⟨v, hv, holds⟩ := exists_of_rel_some (h ▸ value_ofScalar? types t)
  refine ⟨v, ?_, holds⟩
  cases t with
  | vector element => cases h
  | primitive p | string | named n =>
    simp only [Go.Shape.ofField, hv]
    rfl

/-- **Go performs whatever touches a field.** -/
theorem performs_of_touches {l : Abi.Layout} {f : Field} {slot : Abi.Slot} {t : Option Touch}
    {a : Option WasmAccess} (hslot : l.slot? f.name = some slot) (ht : Touches types l f t)
    (h : WasmAccess.ofField types l f = .ok a) : Option.Rel (GoPerforms types) t a := by
  rw [WasmAccess.ofField, hslot] at h
  dsimp only at h
  cases ht with
  | skipped held =>
    rw [shape_eq_hidden held] at h
    obtain rfl := Except.ok.inj h
    exact .none
  | plain held slot_eq =>
    obtain ⟨v, hv, holds⟩ := exists_shape_one held
    rw [hv] at h
    obtain rfl := Except.ok.inj h
    obtain rfl := Option.some.inj (hslot.symm.trans slot_eq)
    exact .some (.plain holds)
  | vector type held slot_eq count_eq kind spans =>
    obtain ⟨v, hv, holds⟩ := exists_shape_many held
    rw [type, hv] at h
    dsimp only at h
    rw [Abi.countName, count_eq] at h
    obtain ⟨stride, hstride, ha⟩ := bind_eq_ok_iff.mp h
    obtain rfl := pure_eq_ok_iff.mp ha
    obtain rfl := Option.some.inj (hslot.symm.trans slot_eq)
    -- both sides find the distance of the elements by themselves
    obtain rfl := spans.unique (holds.spans stride hstride)
    exact .some (.vector holds)

/-! ### Fields and their slots -/

/-- A field that is no vector takes one part, with its name. -/
theorem takes_eq_singleton {inner : String → Abi.Layout → Prop} {f : Field}
    {parts : List Abi.Part} (h : Abi.Takes types inner f parts)
    (hvector : ∀ element, f.type ≠ .vector element) : ∃ p, parts = [p] ∧ p.name = f.name := by
  cases h with
  | vector element type => exact absurd type (hvector element)
  | primitive | string | enum | record | reference => exact ⟨_, rfl, rfl⟩

/-- A vector takes two parts, one with its name and one with that of its count. -/
theorem takes_eq_pair {inner : String → Abi.Layout → Prop} {f : Field} {parts : List Abi.Part}
    (h : Abi.Takes types inner f parts) {element : FieldType} (htype : f.type = .vector element) :
    ∃ p q, parts = [p, q] ∧ p.name = f.name ∧ q.name = f.name ++ "_count" := by
  cases h with
  | vector => exact ⟨_, _, rfl, rfl, rfl⟩
  | primitive _ type | string type | enum _ type | record _ _ type | reference _ type =>
    cases htype.symm.trans type

/-- A field takes a part with its name. -/
theorem exists_part_named {inner : String → Abi.Layout → Prop} {f : Field}
    {parts : List Abi.Part} (h : Abi.Takes types inner f parts) : ∃ p ∈ parts, p.name = f.name := by
  cases h <;> exact ⟨_, List.mem_cons_self, rfl⟩

/-- Every field of a record finds a slot. -/
theorem exists_slot {l : Abi.Layout} {fields : List Field} {chunks : List (List Abi.Slot)}
    (hslots : l.slots = chunks.flatten) (hfields : Abi.FieldSlots types fields chunks) {f : Field}
    (hf : f ∈ fields) : ∃ slot, l.slot? f.name = some slot := by
  obtain ⟨chunk, hchunk, htakes⟩ := exists_mem_of_forall₂ hfields hf
  obtain ⟨p, hp, hname⟩ := exists_part_named htakes
  obtain ⟨s, hs, rfl⟩ := List.mem_map.mp hp
  have hmem : s ∈ l.slots := by
    rw [hslots]
    exact List.mem_flatten_of_mem hchunk hs
  rw [Abi.Layout.slot?, ← Option.isSome_iff_exists, List.find?_isSome]
  exact ⟨s, hmem, beq_iff_eq.mpr hname⟩

/-- A touch at the slots of the field itself. -/
inductive OwnSlots : List Abi.Slot → Option Touch → Prop where
  | skipped (chunk : List Abi.Slot) : OwnSlots chunk none
  | plain (slot : Abi.Slot) (f : String) (s : Storage) :
      OwnSlots [slot] (some (.plain f slot.offset s))
  | vector (slot count : Abi.Slot) (f : String) (stride : Nat) (s : Storage) :
      OwnSlots [slot, count] (some (.vector f slot.offset count.offset stride s))

/-- **Distinct names find the right slots.** -/
theorem ownSlots_of_touches {l : Abi.Layout} {f : Field} {t : Option Touch}
    {inner : String → Abi.Layout → Prop} {chunk : List Abi.Slot}
    (hnames : (l.slots.map fun s => s.name).Nodup) (hchunk : ∀ s ∈ chunk, s ∈ l.slots)
    (htakes : Abi.Takes types inner f (chunk.map (·.toPart))) (ht : Touches types l f t) :
    OwnSlots chunk t := by
  have hfind : ∀ s ∈ chunk, l.slot? s.name = some s := by
    intro s hs
    exact find?_name_eq_some hnames (hchunk s hs)
  cases ht with
  | skipped held => exact .skipped chunk
  | plain held slot_eq =>
    obtain ⟨p, hp, hname⟩ := takes_eq_singleton htakes (ne_vector_of_ofField? held)
    obtain ⟨s, rfl, rfl⟩ := List.map_eq_singleton_iff.mp hp
    have hs := hfind s List.mem_cons_self
    obtain rfl := Option.some.inj ((hname ▸ hs).symm.trans slot_eq)
    exact .plain s f.name _
  | vector type held slot_eq count_eq kind spans =>
    obtain ⟨p, q, hpq, hname, hcount⟩ := takes_eq_pair htakes type
    obtain ⟨s, rest, rfl, rfl, hrest⟩ := List.map_eq_cons_iff.mp hpq
    obtain ⟨c, rfl, rfl⟩ := List.map_eq_singleton_iff.mp hrest
    -- the count is found under its own name as well
    have hs := hfind s List.mem_cons_self
    have hc := hfind c (List.mem_cons_of_mem s List.mem_cons_self)
    obtain rfl := Option.some.inj ((hname ▸ hs).symm.trans slot_eq)
    obtain rfl := Option.some.inj ((hcount ▸ hc).symm.trans count_eq)
    exact .vector s c f.name _ _

/-- The same for all fields of a record. -/
theorem forall₂_ownSlots {l : Abi.Layout} {fields : List Field} {chunks : List (List Abi.Slot)}
    {touches : List (Option Touch)} (hnames : (l.slots.map fun s => s.name).Nodup)
    (hslots : ∀ s ∈ chunks.flatten, s ∈ l.slots) (hfields : Abi.FieldSlots types fields chunks)
    (htouched : List.Forall₂ (Touches types l) fields touches) :
    List.Forall₂ OwnSlots chunks touches := by
  unfold Abi.FieldSlots at hfields
  induction hfields generalizing touches with
  | nil =>
    cases htouched
    exact .nil
  | cons htakes _ ih =>
    rw [List.flatten_cons, List.forall_mem_append] at hslots
    cases htouched with
    | cons ht hrest =>
      exact .cons (ownSlots_of_touches hnames hslots.1 htakes ht) (ih hslots.2 hrest)

/-! ### Records -/

/-- The field of a touch. -/
def Touch.field : Touch → String
  | plain f _ _ => f
  | vector f _ _ _ _ => f

/-- The field of an access of JavaScript. -/
def javaScriptField : JavaScript.Access → String
  | .plain f _ _ => f
  | .vector f _ _ _ _ => f

/-- The names of the fields that hold something. -/
def coveredNames (types : Schema) (fields : List Field) : List String :=
  (fields.filter fun f => (Storage.held? types f.type).isSome).map (·.name)

/-- **Two codecs that do the same** to a record with this layout and these fields. -/
structure SameTouches (types : Schema) (l : Abi.Layout) (fields : List Field)
    (touches : List (Option Touch)) (c : JavaScript.Codec) (g : WasmCodec) : Prop where
  /-- Each field is touched at the slots with its names, or not at all. -/
  touched : List.Forall₂ (Touches types l) fields touches
  /-- JavaScript does what touches the fields, and no more. -/
  javaScript : List.Forall₂ (JavaScriptPerforms types) (touches.filterMap id) c.accesses
  /-- Go does what touches the fields, and no more. -/
  go : List.Forall₂ (GoPerforms types) (touches.filterMap id) g.accesses
  /-- If the slots have distinct names, each field is touched at its own. -/
  own : (l.slots.map fun s => s.name).Nodup →
    ∃ chunks, l.slots = chunks.flatten ∧ Abi.FieldSlots types fields chunks ∧
      List.Forall₂ OwnSlots chunks touches

/-- What touches the fields covers those that hold something. -/
theorem map_field_touches {l : Abi.Layout} {fields : List Field} {touches : List (Option Touch)}
    (h : List.Forall₂ (Touches types l) fields touches) :
    (touches.filterMap id).map Touch.field = coveredNames types fields := by
  -- A field that is skipped is left out on both sides.
  induction h with
  | nil => rfl
  | @cons f t fields touches hf _ ih =>
    rw [coveredNames, List.filter_cons]
    cases hf with
    | skipped held =>
      rw [held, if_neg (by simp)]
      exact ih
    | plain held slot_eq =>
      have hheld : (Storage.held? types f.type).isSome = true := by
        rw [held?_of_ne_vector (ne_vector_of_ofField? held), held]
        rfl
      rw [if_pos hheld]
      exact congrArg (List.cons f.name) ih
    | vector type held slot_eq count_eq kind spans =>
      have hheld : (Storage.held? types f.type).isSome = true := by
        rw [type, Storage.held?, held]
        rfl
      rw [if_pos hheld]
      exact congrArg (List.cons f.name) ih

/-- Go reorders the accesses, and loses none. -/
theorem perm_ordered (g : WasmCodec) : g.ordered.Perm g.accesses := by
  have hperm := List.filter_append_perm (fun a : WasmAccess => !a.isVector) g.accesses
  simp only [Bool.not_not] at hperm
  exact hperm

/-- **One record.** -/
theorem exists_sameTouches {name : String} {d : TypeDef} {l : Abi.Layout} {c : JavaScript.Codec}
    {g : WasmCodec} (hl : Abi.layout types name = .ok l) (hd : types.get? name = some d)
    (hjs : JavaScript.Codec.ofLayout types d l = .ok c)
    (hgo : WasmCodec.ofRecord types name d = .ok g) :
    c.record = name ∧ g.record = name ∧ ∃ touches, SameTouches types l d.fields touches c g := by
  -- (1) every field has a slot with its name
  obtain ⟨d', chunks, hd', -, hslots, hfields⟩ := Abi.exists_fieldSlots hl
  obtain rfl : d = d' := Option.some.inj (hd.symm.trans hd')
  have hslot : ∀ f ∈ d.fields, ∃ slot, l.slot? f.name = some slot :=
    fun f hf => exists_slot hslots hfields hf
  -- (2) JavaScript tells what touches the fields
  obtain ⟨accesses, haccesses, hc⟩ := bind_eq_ok_iff.mp hjs
  obtain rfl := pure_eq_ok_iff.mp hc
  obtain ⟨touches, htouched, hperformed⟩ := exists_between (mapM_eq_ok_iff.mp haccesses)
    (S := Touches types l) (T := Option.Rel (JavaScriptPerforms types)) fun f hf a ha => by
      obtain ⟨slot, hs⟩ := hslot f hf
      exact exists_touch hs ha
  -- (3) Go performs the same
  simp only [WasmCodec.ofRecord, bind_eq_ok_iff, mapError_eq_ok_iff, mapM_eq_ok_iff,
    pure_eq_ok_iff] at hgo
  obtain ⟨l', hl', accesses', haccesses', rfl⟩ := hgo
  obtain rfl : l = l' := Except.ok.inj (hl.symm.trans hl')
  have hperformed' : List.Forall₂ (Option.Rel (GoPerforms types)) touches accesses' :=
    forall₂_of_common htouched haccesses' fun f hf t a ht ha => by
      obtain ⟨slot, hs⟩ := hslot f hf
      exact performs_of_touches hs ht ha
  have hjavaScript := forall₂_filterMap_id hperformed
  have hgo := forall₂_filterMap_id hperformed'
  refine ⟨Abi.name_of_layout hl, rfl, touches, htouched, hjavaScript, hgo, ?_⟩
  -- (4) with distinct names, the slot that is found is the right one
  intro hnames
  refine ⟨chunks, hslots, hfields, forall₂_ownSlots hnames ?_ hfields htouched⟩
  intro s hs
  rwa [hslots]

/-- The codecs of JavaScript, record by record. -/
theorem forall₂_javaScript {js : List JavaScript.Codec}
    (h : JavaScript.Codec.all types = .ok js) :
    List.Forall₂ (fun r c => ∃ l, Abi.layout types r.1 = .ok l ∧
      JavaScript.Codec.ofLayout types r.2 l = .ok c) types.records js := by
  simp only [JavaScript.Codec.all, bind_eq_ok_iff, mapM_eq_ok_iff, mapError_eq_ok_iff,
    pure_eq_ok_iff] at h
  obtain ⟨layouts, hlayouts, hcodecs⟩ := h
  -- all layouts are made before any codec, so the two walks are put together
  refine forall₂_of_common hlayouts.flip hcodecs ?_
  rintro _ _ r c ⟨l, hl, rfl⟩ hc
  exact ⟨l, hl, hc⟩

end Wasm

end Bindery
