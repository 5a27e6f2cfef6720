import Bindery.Proofs.Layout.Records

/-!
# The natural layout

`IsNatural` says what the layout of a record is, without placing anything: the slots of
the fields in their order, each at the least aligned offset behind the one before, the
largest alignment for the whole, and the least size that keeps an array of such records
aligned. Every layout is natural (`layout_isNatural`).

An address is reached through records that lie in records (`Lies`). Each step goes to a
slot that is aligned because its record is, and a record inside has the alignment of its
slot, so alignment goes all the way in (`Lies.align_dvd`). Nothing that is reached lies
outside the record (`Lies.bounds`).
-/

namespace Bindery.Abi

variable {types : Schema}

/-! ### What a layout is -/

/-- **The natural layout** of a record with these fields. -/
structure IsNatural (types : Schema) (fields : List Field) (l : Layout) : Prop where
  /-- One slot for a field, two for a vector, in the order of the fields. -/
  slots : ∃ chunks, l.slots = chunks.flatten ∧ FieldSlots types fields chunks
  /-- A slot starts at the least multiple of its alignment behind the slots before. -/
  offsets : ∀ pre s post, l.slots = pre ++ s :: post →
    IsLeast {k | s.align ∣ k ∧ stopFrom 0 pre ≤ k} s.offset
  align : fields ≠ [] → IsGreatest {a | ∃ s ∈ l.slots, s.align = a} l.align
  size : fields ≠ [] → IsLeast {k | l.align ∣ k ∧ stopFrom 0 l.slots ≤ k} l.size
  /-- A record without fields takes one pointer. -/
  empty : fields = [] → l.align = 4 ∧ l.size = 4

/-- A field takes at least one part. -/
theorem Takes.ne_nil {inner : String → Layout → Prop} {f : Field} {parts : List Part}
    (h : Takes types inner f parts) : parts ≠ [] := by
  cases h <;> exact List.cons_ne_nil _ _

/-- Only a record without fields has no parts. -/
theorem flatten_eq_nil_iff {inner : String → Layout → Prop} {fields : List Field}
    {chunks : List (List Part)} (h : List.Forall₂ (Takes types inner) fields chunks) :
    chunks.flatten = [] ↔ fields = [] := by
  cases h with
  | nil => simp
  | cons htakes _ =>
    rw [List.flatten_cons, List.append_eq_nil_iff]
    exact ⟨fun hnil => absurd hnil.1 htakes.ne_nil, nofun⟩

/-- The alignments of the slots are those of the parts. -/
theorem exists_slot_align_iff {parts : List Part} {a : Nat} :
    (∃ s ∈ placeFrom 0 parts, s.align = a) ↔ ∃ p ∈ parts, p.align = a := by
  have hmap := map_toPart_placeFrom 0 parts
  constructor
  · rintro ⟨s, hs, ha⟩
    exact ⟨s.toPart, toPart_mem_of_mem_placeFrom hs, ha⟩
  · rintro ⟨p, hp, ha⟩
    rw [← hmap] at hp
    obtain ⟨s, hs, rfl⟩ := List.mem_map.mp hp
    exact ⟨s, hs, ha⟩

/-- Parts that are placed are placed naturally. -/
theorem isNatural_of_layout {name : String} {l : Layout} (h : layout types name = .ok l) :
    ∃ d, types.get? name = some d ∧ d.isRecord = true ∧ IsNatural types d.fields l := by
  obtain ⟨d, parts, hd, hrec, htakes, rfl⟩ := exists_parts_of_layout h
  obtain ⟨chunks, hslots, rfl⟩ := exists_chunks (map_toPart_placeFrom 0 parts.flatten)
  have hsound := sound_flatten htakes fun n l hl => layout_sound hl
  have hnil := flatten_eq_nil_iff htakes
  generalize hparts : (chunks.map (List.map fun s : Slot => s.toPart)).flatten = parts at *
  refine ⟨d, hd, hrec, ⟨chunks, hslots, List.forall₂_map_right_iff.mp htakes⟩, ?_, ?_, ?_, ?_⟩
  -- the offsets
  · intro pre s post hsplit
    exact isLeast_offset_placeFrom hsound hsplit
  -- the alignment
  · intro hne
    have hparts_ne : parts ≠ [] := fun he => hne (hnil.mp he)
    change IsGreatest {a | ∃ s ∈ placeFrom 0 parts, s.align = a}
      (if parts.isEmpty then pointerSize else maxAlign parts)
    rw [if_neg (by simpa using hparts_ne)]
    simp only [exists_slot_align_iff]
    exact isGreatest_maxAlign hsound hparts_ne
  -- the size
  · intro hne
    have hparts_ne : parts ≠ [] := fun he => hne (hnil.mp he)
    obtain ⟨k, hk⟩ := maxAlign_eq_two_pow hsound
    change IsLeast {k | (if parts.isEmpty then pointerSize else maxAlign parts) ∣ k ∧
        stopFrom 0 (placeFrom 0 parts) ≤ k}
      (if endFrom 0 parts = 0 then pointerSize else alignUp (endFrom 0 parts) (maxAlign parts))
    rw [if_neg (by simpa using hparts_ne), stopFrom_placeFrom,
      if_neg (Nat.pos_iff_ne_zero.mp (endFrom_pos hsound hparts_ne))]
    exact isLeast_alignUp _ (hk ▸ Nat.two_pow_pos k)
  -- a record without fields
  · intro hempty
    obtain rfl := hnil.mpr hempty
    exact ⟨rfl, rfl⟩

/-! ### Addresses -/

/-- **A slot reached from a record.** With the record `l` at the address `base`, the slot
lies at an address: as a slot of the record, or inside a record that is one. -/
inductive Lies (types : Schema) : Layout → Nat → Slot → Nat → Prop where
  | here {l : Layout} {base : Nat} {s : Slot} (mem : s ∈ l.slots) :
      Lies types l base s (base + s.offset)
  | inside {l inner : Layout} {base addr : Nat} {r s : Slot} {n : String} (mem : r ∈ l.slots)
      (kind : r.kind = .record n) (layout : layout types n = .ok inner)
      (rest : Lies types inner (base + r.offset) s addr) : Lies types l base s addr

/-- A slot of an aligned record is aligned. -/
theorem align_dvd_add_offset {name : String} {l : Layout} (h : layout types name = .ok l)
    {base : Nat} (hbase : l.align ∣ base) {s : Slot} (hs : s ∈ l.slots) :
    s.align ∣ base + s.offset :=
  Nat.dvd_add (Nat.dvd_trans (align_dvd_align h hs) hbase) (align_dvd_offset h hs)

/-- **Alignment goes all the way in.** -/
theorem Lies.align_dvd {l : Layout} {base addr : Nat} {s : Slot} (h : Lies types l base s addr)
    {name : String} (hl : layout types name = .ok l) (hbase : l.align ∣ base) :
    s.align ∣ addr := by
  induction h generalizing name with
  | here mem => exact align_dvd_add_offset hl hbase mem
  | inside mem kind layout rest ih =>
    -- the record inside starts where its slot does, and both have the same alignment
    obtain ⟨inner, hinner, -, halign⟩ := layout_of_record_slot hl mem kind
    obtain rfl := Except.ok.inj (hinner.symm.trans layout)
    refine ih layout ?_
    rw [← halign]
    exact align_dvd_add_offset hl hbase mem

/-- Nothing that is reached lies outside the record. -/
theorem Lies.bounds {l : Layout} {base addr : Nat} {s : Slot} (h : Lies types l base s addr)
    {name : String} (hl : layout types name = .ok l) :
    base ≤ addr ∧ addr + s.size ≤ base + l.size := by
  induction h generalizing name with
  | here mem =>
    have hstop := stop_le_size hl mem
    rw [Slot.stop] at hstop
    omega
  | inside mem kind layout rest ih =>
    obtain ⟨inner, hinner, hsize, -⟩ := layout_of_record_slot hl mem kind
    obtain rfl := Except.ok.inj (hinner.symm.trans layout)
    -- what lies inside the slot lies inside the record
    obtain ⟨hlow, hhigh⟩ := ih layout
    have hstop := stop_le_size hl mem
    rw [Slot.stop] at hstop
    omega

/-- **Every layout is natural.** Its inline records have the size and the alignment of
their own layouts, its slots do not overlap and lie inside it, and in an array of such
records at an aligned address every slot that is reached is aligned, however deep. -/
theorem layout_isNatural {types : Schema} {name : String} {l : Layout}
    (h : layout types name = .ok l) :
    (∃ d, types.get? name = some d ∧ d.isRecord = true ∧ IsNatural types d.fields l) ∧
      (∀ s ∈ l.slots, ∀ n, s.kind = .record n →
        ∃ inner, layout types n = .ok inner ∧ s.size = inner.size ∧ s.align = inner.align) ∧
      (l.slots.Pairwise fun s t => s.stop ≤ t.offset) ∧
      (∀ s ∈ l.slots, s.stop ≤ l.size) ∧
      ∀ base, l.align ∣ base → ∀ i s addr, Lies types l (base + i * l.size) s addr →
        s.align ∣ addr ∧ base + i * l.size ≤ addr ∧
          addr + s.size ≤ base + i * l.size + l.size := by
  refine ⟨isNatural_of_layout h, fun s hs n hkind => layout_of_record_slot h hs hkind, ?_,
    fun s hs => stop_le_size h hs, ?_⟩
  · obtain ⟨parts, hsound, rfl⟩ := exists_place_of_layout h
    exact pairwise_placeFrom hsound
  · intro base hbase i s addr hlies
    -- the elements of the array are aligned because the size is a multiple of the alignment
    have helement : l.align ∣ base + i * l.size :=
      Nat.dvd_add hbase (Nat.dvd_mul_left_of_dvd (align_dvd_size h) i)
    exact ⟨hlies.align_dvd h helement, hlies.bounds h⟩

/-- A schema in which a table holds a record by value, which holds one without fields. -/
def nestedSchema : Schema :=
  (((Keyed.empty.insert "Mark" { kind := .struct }).insert
    "Level" { kind := .enum, base := some .uint8 }).insert
    "Point" { kind := .struct, fields := [⟨"tag", .primitive .int8⟩,
      ⟨"stamp", .primitive .int64⟩, ⟨"mark", .named "Mark"⟩] }).insert
    "Shape" { kind := .table, fields := [⟨"flag", .primitive .bool⟩, ⟨"origin", .named "Point"⟩,
      ⟨"corners", .vector (.named "Point")⟩, ⟨"level", .named "Level"⟩] }

/-- The layout of a point. -/
def pointLayout : Layout where
  name := "Point"
  size := 24
  align := 8
  slots := [⟨⟨"tag", .primitive .int8, 1, 1⟩, 0⟩, ⟨⟨"stamp", .primitive .int64, 8, 8⟩, 8⟩,
    ⟨⟨"mark", .record "Mark", 4, 4⟩, 16⟩]

/-- The layout of a shape. -/
def shapeLayout : Layout where
  name := "Shape"
  size := 48
  align := 8
  slots := [⟨⟨"flag", .primitive .bool, 1, 1⟩, 0⟩, ⟨⟨"origin", .record "Point", 24, 8⟩, 8⟩,
    ⟨⟨"corners", .pointer, 4, 4⟩, 32⟩, ⟨⟨"corners_count", .count, 4, 4⟩, 36⟩,
    ⟨⟨"level", .enum .int32, 4, 4⟩, 40⟩]

/-- In the fourth of some shapes at the address 16, the stamp of the origin is aligned. -/
theorem layout_isNatural_nestedSchema :
    layout nestedSchema "Shape" = .ok shapeLayout ∧
      Lies nestedSchema shapeLayout (16 + 3 * 48) ⟨⟨"stamp", .primitive .int64, 8, 8⟩, 8⟩ 176 ∧
      8 ∣ 176 := by
  have hshape : layout nestedSchema "Shape" = .ok shapeLayout := by cbv
  have hpoint : layout nestedSchema "Point" = .ok pointLayout := by cbv
  have hinner : Lies nestedSchema pointLayout (16 + 3 * 48 + 8)
      ⟨⟨"stamp", .primitive .int64, 8, 8⟩, 8⟩ 176 := Lies.here (by decide)
  have horigin : (⟨⟨"origin", .record "Point", 24, 8⟩, 8⟩ : Slot) ∈ shapeLayout.slots := by decide
  have houter := Lies.inside horigin rfl hpoint hinner
  exact ⟨hshape, houter, ((layout_isNatural hshape).2.2.2.2 16 (by decide) 3 _ _ houter).1⟩

end Bindery.Abi
