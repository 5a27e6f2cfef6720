import Bindery.Proofs.Wasm.Codecs

/-!
# Codecs stay inside their records

A codec finds the slots of a field by name, and nothing keeps the names of slots apart: a
vector `dots` beside a field `dots_count` makes two slots of one name, and so does a field
that is declared twice. Then a field is read and written at a slot that is not its own, and
with a width that need not be that of the slot.

It is still read and written inside the record. The slot that is found is the first one
with the name, and slots come in the order of their offsets, so it never lies behind the
field's own slot (`offset_le_of_slot?`). The access is as wide as the own slot, and
therefore ends where the own slot ends, or before (`within_of_found`).

`Covers` collects all bytes that reading or writing a value touches: those of the value
itself, and for a record those of its fields, which may be records again. Texts and vectors
are followed no further than to their addresses and counts. The bytes of a value lie inside
the room that the value spans (`Covers.within`), by induction over the records inside one
another.
-/

namespace Bindery

open JavaScript (Cell)
open Go (Value WasmAccess WasmCodec)

namespace Wasm

variable {types : Schema} {l : Abi.Layout} {f : Field}

/-! ### What values and accesses are in memory -/

/-- What a value of Go is in memory. -/
def goStorage : Value → Storage
  | .scalar p => .ofPrimitive p
  | .text => .text
  | .enum _ base => .ofPrimitive base
  | .record n => .record n

/-- What a cell of JavaScript is in memory. -/
def cellStorage : Cell → Storage
  | .scalar p => .ofPrimitive p
  | .text => .text
  | .record n => .record n

/-- Go finds a value exactly where something is held. -/
theorem map_goStorage (types : Schema) (t : FieldType) :
    (Value.ofScalar? types t).map goStorage = Storage.ofField? types t := by
  cases t with
  | primitive p | string | vector element => rfl
  | named n =>
    rw [Value.ofScalar?, Value.ofName?_eq, Storage.ofField?]
    split
    · rfl
    · split <;> rfl

/-- JavaScript finds a cell exactly where something is held. -/
theorem map_cellStorage (types : Schema) (t : FieldType) :
    (Cell.ofField? types t).map cellStorage = Storage.ofField? types t := by
  cases t with
  | primitive p | string | vector element => rfl
  | named n =>
    rw [Cell.ofField?, Cell.ofName?_eq, Storage.ofField?]
    split
    · rfl
    · split <;> rfl

theorem ofField?_of_value {t : FieldType} {v : Value} (h : Value.ofScalar? types t = some v) :
    Storage.ofField? types t = some (goStorage v) := by
  rw [← map_goStorage, h, Option.map_some]

theorem ofField?_of_cell {t : FieldType} {c : Cell} (h : Cell.ofField? types t = some c) :
    Storage.ofField? types t = some (cellStorage c) := by
  rw [← map_cellStorage, h, Option.map_some]

/-- The code of Go for a value that a type has. -/
theorem valueHolds_storage {t : FieldType} {v : Value} (h : Value.ofScalar? types t = some v) :
    ValueHolds types v (goStorage v) := by
  have hrel := value_ofScalar? types t
  rw [h, ofField?_of_value h] at hrel
  cases hrel with
  | some holds => exact holds

/-- The code of JavaScript for a cell that a type has. -/
theorem cellHolds_storage {t : FieldType} {c : Cell} (h : Cell.ofField? types t = some c) :
    CellHolds types c (cellStorage c) := by
  have hrel := cell_ofField? types t
  rw [h, ofField?_of_cell h] at hrel
  cases hrel with
  | some holds => exact holds

/-- What an access of Go does. -/
def goTouch : WasmAccess → Touch
  | .plain f offset v => .plain f offset (goStorage v)
  | .vector f offset count stride v => .vector f offset count stride (goStorage v)

/-- What an access of JavaScript does. -/
def javaScriptTouch : JavaScript.Access → Touch
  | .plain f offset c => .plain f offset (cellStorage c)
  | .vector f offset count stride c => .vector f offset count stride (cellStorage c)

/-! ### The slots that are found -/

/-- **A touch at the slots with the names of a field**, whatever fields they belong to. -/
inductive Found (types : Schema) (l : Abi.Layout) (f : Field) : Touch → Prop where
  | plain {s : Storage} {slot : Abi.Slot} (held : Storage.ofField? types f.type = some s)
      (slot_eq : l.slot? f.name = some slot) : Found types l f (.plain f.name slot.offset s)
  | vector {element : FieldType} {s : Storage} {slot count : Abi.Slot} {stride : Nat}
      (type : f.type = .vector element) (slot_eq : l.slot? f.name = some slot)
      (count_eq : l.slot? (f.name ++ "_count") = some count) :
      Found types l f (.vector f.name slot.offset count.offset stride s)

/-- **An access of JavaScript** is at the slots with the names of its field, and does what
its touch says. -/
theorem found_of_javaScript {a : JavaScript.Access}
    (h : JavaScript.Access.ofField types l f = .ok (some a)) :
    Found types l f (javaScriptTouch a) ∧ JavaScriptPerforms types (javaScriptTouch a) a := by
  -- A field is left out, or it is found in the layout: as a vector with its count, or as a single
  -- slot.
  rw [JavaScript.Access.ofField] at h
  split at h
  · cases h
  · next slot hslot =>
    split at h
    · next element htype =>
      split at h
      · cases h
      · next c hc =>
        split at h
        · cases h
        · next count hcount =>
          obtain ⟨stride, -, ha⟩ := bind_eq_ok_iff.mp h
          obtain rfl := Option.some.inj (pure_eq_ok_iff.mp ha)
          exact ⟨.vector htype hslot (Option.filter_eq_some_iff.mp hcount).1,
            .vector (cellHolds_storage hc)⟩
    · obtain ⟨c, hc, rfl⟩ := Option.map_eq_some_iff.mp (Except.ok.inj h)
      exact ⟨.plain (ofField?_of_cell hc) hslot, .plain (cellHolds_storage hc)⟩

/-- A field that Go takes as one value is no vector. -/
theorem ofScalar?_of_shape_one {t : FieldType} {v : Value} (h : Go.Shape.ofField types t = .one v) :
    Value.ofScalar? types t = some v := by
  unfold Go.Shape.ofField at h
  split at h
  · next element => cases hv : Value.ofScalar? types element <;> simp [hv] at h
  · cases hv : Value.ofScalar? types t with
    | none => simp [hv] at h
    | some v' => simpa [hv] using h

/-- A field that Go takes as many values is a vector. -/
theorem exists_element_of_shape_many {t : FieldType} {v : Value}
    (h : Go.Shape.ofField types t = .many v) :
    ∃ element, t = .vector element ∧ Value.ofScalar? types element = some v := by
  unfold Go.Shape.ofField at h
  split at h
  · next element =>
    refine ⟨element, rfl, ?_⟩
    cases hv : Value.ofScalar? types element with
    | none => simp [hv] at h
    | some v' => simpa [hv] using h
  · cases hv : Value.ofScalar? types t <;> simp [hv] at h

/-- **An access of Go** is at the slots with the names of its field, and does what its touch
says. -/
theorem found_of_go {a : WasmAccess} (h : WasmAccess.ofField types l f = .ok (some a)) :
    Found types l f (goTouch a) ∧ GoPerforms types (goTouch a) a := by
  -- As on the other side, with the shape of the field in the place of its cell.
  rw [WasmAccess.ofField] at h
  split at h
  · cases h
  · next slot hslot =>
    split at h
    · next v hv =>
      obtain rfl := Option.some.inj (Except.ok.inj h)
      have hvalue := ofScalar?_of_shape_one hv
      exact ⟨.plain (ofField?_of_value hvalue) hslot, .plain (valueHolds_storage hvalue)⟩
    · next v hv =>
      split at h
      · cases h
      · next count hcount =>
        obtain ⟨stride, -, ha⟩ := bind_eq_ok_iff.mp h
        obtain rfl := Option.some.inj (pure_eq_ok_iff.mp ha)
        obtain ⟨element, htype, hvalue⟩ := exists_element_of_shape_many hv
        exact ⟨.vector htype hslot hcount, .vector (valueHolds_storage hvalue)⟩
    · cases h

/-- **The slot that is found is not behind the field's own.** -/
theorem offset_le_of_slot? {name : String} (hl : Abi.layout types name = .ok l)
    {own found : Abi.Slot} (hown : own ∈ l.slots) (hfound : l.slot? own.name = some found) :
    found.offset ≤ own.offset := by
  obtain ⟨parts, hparts, rfl⟩ := Abi.exists_place_of_layout hl
  have hsorted : (Abi.place name parts).slots.Pairwise fun s t => s.stop ≤ t.offset :=
    Abi.pairwise_placeFrom hparts
  rw [Abi.Layout.slot?, List.find?_eq_some_iff_append] at hfound
  obtain ⟨-, before, after, hsplit, hbefore⟩ := hfound
  rw [hsplit] at hown hsorted
  rcases List.mem_append.mp hown with hearlier | hrest
  · -- a slot of this name in front would have been found first
    have hother := hbefore own hearlier
    rw [beq_self_eq_true] at hother
    cases hother
  · rcases List.mem_cons.mp hrest with rfl | hlater
    · exact Nat.le_refl _
    · have hafter := (List.pairwise_append.mp hsorted).2.1
      have hstop := (List.pairwise_cons.mp hafter).1 own hlater
      exact Nat.le_trans (Nat.le_add_right _ _) hstop

/-! ### The field's own slots -/

/-- The part of a field that is no vector is as wide as what the field holds. -/
theorem exists_part_spans {parts : List Abi.Part}
    (h : Abi.Takes types (Abi.LaidOut types) f parts) {s : Storage}
    (held : Storage.ofField? types f.type = some s) :
    ∃ p ∈ parts, p.name = f.name ∧ s.Spans types p.size := by
  -- Only what can be stored is asked for, and each such part stands under the name of its field.
  cases h with
  | primitive p type =>
    rw [type] at held
    obtain rfl := Option.some.inj held
    exact ⟨_, List.mem_cons_self, rfl, Storage.spans_ofPrimitive types p⟩
  | string type =>
    rw [type] at held
    obtain rfl := Option.some.inj held
    exact ⟨_, List.mem_cons_self, rfl, .text⟩
  | vector element type =>
    rw [type] at held
    cases held
  | enum n type enum =>
    rw [type, Storage.ofField?, if_pos enum] at held
    obtain rfl := Option.some.inj held
    exact ⟨_, List.mem_cons_self, rfl, .number _⟩
  | record n inner type record layout =>
    have henum : ¬ types.isEnum n = true := by
      rw [Schema.isEnum_eq_false_of_isRecord record]
      decide
    rw [type, Storage.ofField?, if_neg henum, if_pos record] at held
    obtain rfl := Option.some.inj held
    exact ⟨_, List.mem_cons_self, rfl, .record layout⟩
  | reference n type noEnum noRecord =>
    rw [type, Storage.ofField?, noEnum, noRecord] at held
    cases held

/-- The parts of a vector are a pointer and a count, of four bytes each. -/
theorem exists_parts_vector {parts : List Abi.Part}
    (h : Abi.Takes types (Abi.LaidOut types) f parts) {element : FieldType}
    (htype : f.type = .vector element) :
    (∃ p ∈ parts, p.name = f.name ∧ p.size = 4) ∧
      ∃ p ∈ parts, p.name = f.name ++ "_count" ∧ p.size = 4 := by
  cases h with
  | vector element type =>
    exact ⟨⟨_, List.mem_cons_self, rfl, rfl⟩,
      ⟨_, List.mem_cons_of_mem _ List.mem_cons_self, rfl, rfl⟩⟩
  | primitive _ type | string type | enum _ type | record _ _ type | reference _ type =>
    cases htype.symm.trans type

/-- **The room of a touch lies inside a record of this size.** -/
def Touch.Within (types : Schema) (size : Nat) : Touch → Prop
  | plain _ offset s => ∃ n, s.Spans types n ∧ offset + n ≤ size
  | vector _ offset count _ _ => offset + 4 ≤ size ∧ count + 4 ≤ size

/-- An access that is as wide as a slot, at the first slot of the same name. -/
theorem found_add_size_le {name : String} (hl : Abi.layout types name = .ok l)
    {own found : Abi.Slot} (hown : own ∈ l.slots) (hfound : l.slot? own.name = some found) :
    found.offset + own.size ≤ l.size := by
  have hoffset := offset_le_of_slot? hl hown hfound
  have hstop : own.offset + own.size ≤ l.size := Abi.stop_le_size hl hown
  omega

/-- **Wherever a field is found, it is touched inside its record.** -/
theorem within_of_found {name : String} {d : TypeDef} (hl : Abi.layout types name = .ok l)
    (hd : types.get? name = some d) (hf : f ∈ d.fields) {t : Touch} (h : Found types l f t) :
    t.Within types l.size := by
  obtain ⟨d', chunks, hd', -, hslots, hfields⟩ := Abi.exists_fieldSlots hl
  obtain rfl : d = d' := Option.some.inj (hd.symm.trans hd')
  obtain ⟨chunk, hchunk, htakes⟩ := exists_mem_of_forall₂ hfields hf
  -- a part of the field is a slot of the record
  have hslot : ∀ p ∈ chunk.map (·.toPart), ∃ own ∈ l.slots, own.toPart = p := by
    intro p hp
    obtain ⟨own, hown, rfl⟩ := List.mem_map.mp hp
    rw [hslots]
    exact ⟨own, List.mem_flatten_of_mem hchunk hown, rfl⟩
  cases h with
  | plain held slot_eq =>
    obtain ⟨p, hp, hname, hspans⟩ := exists_part_spans htakes held
    obtain ⟨own, hown, rfl⟩ := hslot p hp
    exact ⟨own.size, hspans, found_add_size_le hl hown (hname ▸ slot_eq)⟩
  | vector type slot_eq count_eq =>
    obtain ⟨⟨p, hp, hname, hsize⟩, q, hq, hname', hsize'⟩ := exists_parts_vector htakes type
    obtain ⟨own, hown, rfl⟩ := hslot p hp
    obtain ⟨own', hown', rfl⟩ := hslot q hq
    have hdata := found_add_size_le hl hown (hname ▸ slot_eq)
    have hcount := found_add_size_le hl hown' (hname' ▸ count_eq)
    rw [hsize] at hdata
    rw [hsize'] at hcount
    exact ⟨hdata, hcount⟩

/-! ### The codecs of a schema -/

/-- What the codecs of Go do to a record. -/
def GoTouches (go : List WasmCodec) (n : String) (t : Touch) : Prop :=
  ∃ g ∈ go, g.record = n ∧ ∃ a ∈ g.accesses, goTouch a = t

/-- What the codecs of JavaScript do to a record. -/
def JavaScriptTouches (js : List JavaScript.Codec) (n : String) (t : Touch) : Prop :=
  ∃ c ∈ js, c.record = n ∧ ∃ a ∈ c.accesses, javaScriptTouch a = t

/-- **Codecs that stay inside their records**: whatever they touch of a record with a layout
lies inside it. -/
def StaysInside (types : Schema) (touches : String → Touch → Prop) : Prop :=
  ∀ n l, Abi.layout types n = .ok l → ∀ t, touches n t → t.Within types l.size

/-- An access is that of some field. -/
theorem exists_field_of_access {α : Type} {ofField : Field → Except Fault (Option α)}
    {fields : List Field} {found : List (Option α)}
    (h : List.Forall₂ (fun f a => ofField f = .ok a) fields found) {a : α}
    (ha : a ∈ found.filterMap id) : ∃ f ∈ fields, ofField f = .ok (some a) := by
  have hmem : some a ∈ found := by simpa using ha
  exact exists_mem_of_forall₂ h.flip hmem

/-- Where an access of Go comes from. -/
theorem exists_field_of_go {go : List WasmCodec} (hgo : WasmCodec.all types = .ok go)
    {g : WasmCodec} (hg : g ∈ go) {a : WasmAccess} (ha : a ∈ g.accesses) :
    ∃ l d, Abi.layout types g.record = .ok l ∧ types.get? g.record = some d ∧
      ∃ f ∈ d.fields, WasmAccess.ofField types l f = .ok (some a) := by
  have hcodecs := mapM_eq_ok_iff.mp hgo
  obtain ⟨⟨name, d⟩, hr, hof⟩ := exists_mem_of_forall₂ hcodecs.flip hg
  simp only [WasmCodec.ofRecord, bind_eq_ok_iff, mapError_eq_ok_iff, mapM_eq_ok_iff,
    pure_eq_ok_iff] at hof
  obtain ⟨l, hl, found, hfound, rfl⟩ := hof
  have hd := (Schema.mem_records_iff.mp hr).1
  exact ⟨l, d, hl, hd, exists_field_of_access hfound ha⟩

/-- Where an access of JavaScript comes from. -/
theorem exists_field_of_javaScript {js : List JavaScript.Codec}
    (hjs : JavaScript.Codec.all types = .ok js) {c : JavaScript.Codec} (hc : c ∈ js)
    {a : JavaScript.Access} (ha : a ∈ c.accesses) :
    ∃ l d, Abi.layout types c.record = .ok l ∧ types.get? c.record = some d ∧
      ∃ f ∈ d.fields, JavaScript.Access.ofField types l f = .ok (some a) := by
  obtain ⟨⟨name, d⟩, hr, l, hl, hof⟩ := exists_mem_of_forall₂ (forall₂_javaScript hjs).flip hc
  simp only [JavaScript.Codec.ofLayout, bind_eq_ok_iff, mapM_eq_ok_iff, pure_eq_ok_iff] at hof
  obtain ⟨found, hfound, rfl⟩ := hof
  -- a codec has the name that its layout has, and that is the name of the record
  have hname : l.name = name := Abi.name_of_layout hl
  have hd := (Schema.mem_records_iff.mp hr).1
  refine ⟨l, d, ?_, ?_, exists_field_of_access hfound ha⟩
  · rw [hname]
    exact hl
  · rw [hname]
    exact hd

/-- **The codecs of Go stay inside their records.** -/
theorem staysInside_go {go : List WasmCodec} (hgo : WasmCodec.all types = .ok go) :
    StaysInside types (GoTouches go) := by
  rintro n l hl t ⟨g, hg, rfl, a, ha, rfl⟩
  obtain ⟨l', d, hl', hd, f, hf, hfield⟩ := exists_field_of_go hgo hg ha
  obtain rfl : l = l' := Except.ok.inj (hl.symm.trans hl')
  exact within_of_found hl hd hf (found_of_go hfield).1

/-- **The codecs of JavaScript stay inside their records.** -/
theorem staysInside_javaScript {js : List JavaScript.Codec}
    (hjs : JavaScript.Codec.all types = .ok js) : StaysInside types (JavaScriptTouches js) := by
  rintro n l hl t ⟨c, hc, rfl, a, ha, rfl⟩
  obtain ⟨l', d, hl', hd, f, hf, hfield⟩ := exists_field_of_javaScript hjs hc ha
  obtain rfl : l = l' := Except.ok.inj (hl.symm.trans hl')
  exact within_of_found hl hd hf (found_of_javaScript hfield).1

/-! ### The bytes of a value -/

/-- **The bytes that a value at an address covers**, from the first up to but not including
the last number, given what the codecs of the records do. -/
inductive Covers (touches : String → Touch → Prop) : Storage → Nat → Nat → Nat → Prop where
  | number (format : Format) (addr : Nat) :
      Covers touches (.number format) addr addr (addr + format.width)
  | truth (addr : Nat) : Covers touches .truth addr addr (addr + 1)
  /-- Of a text, its address. -/
  | text (addr : Nat) : Covers touches .text addr addr (addr + 4)
  /-- Of a record, whatever its fields cover. -/
  | field {n f : String} {offset addr start stop : Nat} {s : Storage}
      (touched : touches n (.plain f offset s))
      (inner : Covers touches s (addr + offset) start stop) :
      Covers touches (.record n) addr start stop
  /-- Of a vector, the address of its elements. -/
  | elements {n f : String} {offset count stride addr : Nat} {s : Storage}
      (touched : touches n (.vector f offset count stride s)) :
      Covers touches (.record n) addr (addr + offset) (addr + offset + 4)
  /-- Of a vector, its count. -/
  | count {n f : String} {offset count stride addr : Nat} {s : Storage}
      (touched : touches n (.vector f offset count stride s)) :
      Covers touches (.record n) addr (addr + count) (addr + count + 4)

/-- **A value covers no byte outside of its room.** -/
theorem Covers.within {touches : String → Touch → Prop} (inside : StaysInside types touches)
    {s : Storage} {addr start stop : Nat} (h : Covers touches s addr start stop) {n : Nat}
    (hn : s.Spans types n) : addr ≤ start ∧ stop ≤ addr + n := by
  induction h generalizing n with
  | number format addr =>
    cases hn
    exact ⟨Nat.le_refl _, Nat.le_refl _⟩
  | truth addr =>
    cases hn
    exact ⟨Nat.le_refl _, Nat.le_refl _⟩
  | text addr =>
    cases hn
    exact ⟨Nat.le_refl _, Nat.le_refl _⟩
  | field touched inner ih =>
    -- the field lies inside the record, and its bytes lie inside the field
    cases hn with
    | record layout =>
      obtain ⟨width, hwidth, hroom⟩ := inside _ _ layout _ touched
      obtain ⟨hstart, hstop⟩ := ih hwidth
      omega
  | elements touched =>
    cases hn with
    | record layout =>
      have hroom := (inside _ _ layout _ touched).1
      omega
  | count touched =>
    cases hn with
    | record layout =>
      have hroom := (inside _ _ layout _ touched).2
      omega

end Wasm

end Bindery
