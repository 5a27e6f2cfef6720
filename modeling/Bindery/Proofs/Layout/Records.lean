import Bindery.Proofs.Layout.Placement
import Bindery.Proofs.Schema
import Bindery.Proofs.Success

/-!
# The layouts of nested records

A layout is computed inside a list of names, those of the records around it, so that a
record inside itself is noticed. The list decides only whether there is a layout, never
which one: a layout found inside some names is found inside fewer (`layoutWithin_mono`),
and so the parts of a field can be described by `layout` alone (`Takes`).

The recursion is opened once:

* `layoutWithin_eq_ok_iff` — what a record needs to have a layout, and which one it has;
* `layoutWithin_induct` — induction over nested records, with the names around them;
* `layout_induct` — the same after the names are forgotten: what holds of a record once
  it holds of the records inside it holds of every record with a layout.

From these come the slots of a record field by field (`FieldSlots`), its bounds
(`stop_le_size`) and its alignments, which are powers of two (`layout_sound`) and
therefore divide one another (`align_dvd_align`, `align_dvd_size`).
-/

namespace Bindery.Abi

variable {types : Schema}

/-! ### The parts of a field -/

/-- **The parts that a field takes**, given the layouts of the records inside. -/
inductive Takes (types : Schema) (inner : String → Layout → Prop) (f : Field) :
    List Part → Prop where
  | primitive (p : Primitive) (type : f.type = .primitive p) :
      Takes types inner f [⟨f.name, .primitive p, p.row.size, p.row.size⟩]
  | string (type : f.type = .string) : Takes types inner f [⟨f.name, .string, 4, 4⟩]
  | vector (element : FieldType) (type : f.type = .vector element) :
      Takes types inner f [⟨f.name, .pointer, 4, 4⟩, ⟨f.name ++ "_count", .count, 4, 4⟩]
  | enum (n : String) (type : f.type = .named n) (enum : types.isEnum n = true) :
      Takes types inner f [⟨f.name, .enum .int32, 4, 4⟩]
  | record (n : String) (l : Layout) (type : f.type = .named n) (record : types.isRecord n = true)
      (layout : inner n l) : Takes types inner f [⟨f.name, .record n, l.size, l.align⟩]
  /-- A name of neither an enumeration nor a record is not looked through. -/
  | reference (n : String) (type : f.type = .named n) (noEnum : types.isEnum n = false)
      (noRecord : types.isRecord n = false) : Takes types inner f [⟨f.name, .pointer, 4, 4⟩]

theorem Takes.mono {inner inner' : String → Layout → Prop} {f : Field} {parts : List Part}
    (h : Takes types inner f parts) (himp : ∀ n l, inner n l → inner' n l) :
    Takes types inner' f parts := by
  cases h with
  | primitive p type => exact .primitive p type
  | string type => exact .string type
  | vector element type => exact .vector element type
  | enum n type enum => exact .enum n type enum
  | record n l type record layout => exact .record n l type record (himp n l layout)
  | reference n type noEnum noRecord => exact .reference n type noEnum noRecord

/-- The layouts found inside some names. -/
def Within (types : Schema) (visiting : List String) (n : String) (l : Layout) : Prop :=
  layoutWithin types visiting n = .ok l

/-- Parts that are known, in front of parts that are computed. -/
theorem append_eq_ok_iff {here parts : List Part} {rest : Except LayoutError (List Part)} :
    (do let start ← pure here; let others ← rest; return start ++ others) = Except.ok parts ↔
      ∃ others, rest = .ok others ∧ here ++ others = parts := by
  simp only [bind_eq_ok_iff, pure_eq_ok_iff]
  constructor
  · rintro ⟨_, rfl, others, hothers, rfl⟩
    exact ⟨others, hothers, rfl⟩
  · rintro ⟨others, hothers, rfl⟩
    exact ⟨here, rfl, others, hothers, rfl⟩

/-- **One field and the others.** Only a record inside can fail to have parts. -/
theorem partsWithin_cons_eq_ok_iff {visiting : List String} {f : Field} {rest : List Field}
    {parts : List Part} :
    partsWithin types visiting (f :: rest) = .ok parts ↔
      ∃ here others, Takes types (Within types visiting) f here ∧
        partsWithin types visiting rest = .ok others ∧ here ++ others = parts := by
  rw [partsWithin]
  constructor
  · intro h
    split at h
    · next p hp =>
      obtain ⟨others, hothers, rfl⟩ := append_eq_ok_iff.mp h
      exact ⟨_, others, .primitive p hp, hothers, rfl⟩
    · next hp =>
      obtain ⟨others, hothers, rfl⟩ := append_eq_ok_iff.mp h
      exact ⟨_, others, .string hp, hothers, rfl⟩
    · next element hp =>
      obtain ⟨others, hothers, rfl⟩ := append_eq_ok_iff.mp h
      exact ⟨_, others, .vector element hp, hothers, rfl⟩
    · next n hp =>
      split at h
      · next henum =>
        obtain ⟨others, hothers, rfl⟩ := append_eq_ok_iff.mp h
        exact ⟨_, others, .enum n hp henum, hothers, rfl⟩
      · next henum =>
        split at h
        · next hrec =>
          -- the layout of the record inside is the one step that may fail
          simp only [bind_eq_ok_iff, map_eq_ok_iff, pure_eq_ok_iff] at h
          obtain ⟨_, ⟨l, hl, rfl⟩, others, hothers, rfl⟩ := h
          exact ⟨_, others, .record n l hp hrec hl, hothers, rfl⟩
        · next hrec =>
          obtain ⟨others, hothers, rfl⟩ := append_eq_ok_iff.mp h
          exact ⟨_, others, .reference n hp (by simpa using henum) (by simpa using hrec),
            hothers, rfl⟩
  · rintro ⟨here, others, htakes, hothers, rfl⟩
    cases htakes with
    | primitive p type => simp only [type, hothers]; rfl
    | string type => simp only [type, hothers]; rfl
    | vector element type => simp only [type, hothers]; rfl
    | enum n type enum => simp only [type, enum, if_true, hothers]; rfl
    | record n l type record layout =>
      -- a record is tested for being an enumeration first
      have henum := Schema.isEnum_eq_false_of_isRecord record
      rw [Within] at layout
      simp only [type, henum, record, layout, hothers, Bool.false_eq_true, if_true, if_false]
      rfl
    | reference n type noEnum noRecord =>
      simp only [type, noEnum, noRecord, hothers, Bool.false_eq_true, if_false]
      rfl

/-- The parts of fields are the parts of each, in order. -/
theorem partsWithin_eq_ok_iff {visiting : List String} {fields : List Field}
    {parts : List Part} :
    partsWithin types visiting fields = .ok parts ↔
      ∃ chunks, List.Forall₂ (Takes types (Within types visiting)) fields chunks ∧
        chunks.flatten = parts := by
  -- Along the fields: each one takes its parts and leaves the others to the rest.
  induction fields generalizing parts with
  | nil =>
    rw [partsWithin]
    constructor
    · intro h
      exact ⟨[], .nil, Except.ok.inj h⟩
    · rintro ⟨chunks, hchunks, rfl⟩
      cases hchunks
      rfl
  | cons f rest ih =>
    rw [partsWithin_cons_eq_ok_iff]
    constructor
    · rintro ⟨here, others, htakes, hothers, rfl⟩
      obtain ⟨chunks, hchunks, rfl⟩ := ih.mp hothers
      exact ⟨here :: chunks, .cons htakes hchunks, rfl⟩
    · rintro ⟨chunks, hchunks, rfl⟩
      cases hchunks with
      | cons htakes hrest => exact ⟨_, _, htakes, ih.mpr ⟨_, hrest, rfl⟩, rfl⟩

/-- **One record.** A layout is found inside some names exactly when the record is defined
and not among them, and then it is that of its parts. -/
theorem layoutWithin_eq_ok_iff {visiting : List String} {name : String} {l : Layout} :
    layoutWithin types visiting name = .ok l ↔
      ∃ d chunks, types.get? name = some d ∧ d.isRecord = true ∧ name ∉ visiting ∧
        List.Forall₂ (Takes types (Within types (name :: visiting))) d.fields chunks ∧
        place name chunks.flatten = l := by
  rw [layoutWithin]
  split
  · next h => simp [h]
  · next d h =>
    -- the guards in the order of the walk: defined, a record, not inside of itself
    cases hrec : d.isRecord with
    | false => simp [h, hrec]
    | true =>
      simp only [Bool.not_true, Bool.false_eq_true, if_false]
      split
      · next hv =>
        have hmem : name ∈ visiting := by simpa using hv
        simp [hmem]
      · next hv =>
        have hmem : name ∉ visiting := by simpa using hv
        rw [map_eq_ok_iff]
        constructor
        · rintro ⟨parts, hparts, rfl⟩
          obtain ⟨chunks, hchunks, rfl⟩ := partsWithin_eq_ok_iff.mp hparts
          exact ⟨d, chunks, h, hrec, hmem, hchunks, rfl⟩
        · rintro ⟨d', chunks, hd', -, -, hchunks, rfl⟩
          obtain rfl : d = d' := Option.some.inj (h.symm.trans hd')
          exact ⟨chunks.flatten, partsWithin_eq_ok_iff.mpr ⟨chunks, hchunks, rfl⟩, rfl⟩

/-! ### Induction over nested records -/

/-- **Induction over nested records**, with the names around each of them. The number of
names that are left shrinks with every step inward. -/
theorem layoutWithin_induct {P : List String → String → Layout → Prop}
    (step : ∀ visiting name d chunks, types.get? name = some d → d.isRecord = true →
      name ∉ visiting →
      List.Forall₂ (Takes types fun n l =>
        Within types (name :: visiting) n l ∧ P (name :: visiting) n l) d.fields chunks →
      P visiting name (place name chunks.flatten))
    {visiting : List String} {name : String} {l : Layout}
    (h : layoutWithin types visiting name = .ok l) : P visiting name l := by
  induction hn : types.unvisited visiting using Nat.strong_induction_on
    generalizing visiting name l with
  | _ n ih =>
    subst hn
    obtain ⟨d, chunks, hd, hrec, hmem, hchunks, rfl⟩ := layoutWithin_eq_ok_iff.mp h
    -- inside this record its own name is visited too, so one name fewer is left
    have hlt : types.unvisited (name :: visiting) < types.unvisited visiting :=
      Schema.unvisited_cons_lt hd (by simpa using hmem)
    refine step visiting name d chunks hd hrec hmem (hchunks.imp fun f parts htakes => ?_)
    exact htakes.mono fun n l hl => ⟨hl, ih _ hlt hl rfl⟩

/-- **The names around a record do not matter.** A layout found inside some names is found
inside fewer. -/
theorem layoutWithin_mono {visiting : List String} {name : String} {l : Layout}
    (h : layoutWithin types visiting name = .ok l) {visiting' : List String}
    (hsub : visiting' ⊆ visiting) : layoutWithin types visiting' name = .ok l := by
  refine layoutWithin_induct
    (P := fun visiting name l => ∀ visiting', visiting' ⊆ visiting →
      layoutWithin types visiting' name = .ok l) ?_ h visiting' hsub
  intro visiting name d chunks hd hrec hmem hchunks visiting' hsub
  -- fewer names around refuse fewer records, here and further inside
  refine layoutWithin_eq_ok_iff.mpr
    ⟨d, chunks, hd, hrec, fun hmem' => hmem (hsub hmem'), hchunks.imp fun f parts htakes => ?_, rfl⟩
  exact htakes.mono fun n l hl => hl.2 (name :: visiting') (List.cons_subset_cons name hsub)

theorem layout_of_layoutWithin {visiting : List String} {name : String} {l : Layout}
    (h : layoutWithin types visiting name = .ok l) : layout types name = .ok l :=
  layoutWithin_mono h (List.nil_subset visiting)

/-- The records with a layout. -/
def LaidOut (types : Schema) (n : String) (l : Layout) : Prop := layout types n = .ok l

/-- **Induction over nested records.** What holds of a record once it holds of the records
inside it holds of every record with a layout. -/
theorem layout_induct {P : String → Layout → Prop}
    (step : ∀ name d chunks, types.get? name = some d → d.isRecord = true →
      List.Forall₂ (Takes types fun n l => LaidOut types n l ∧ P n l) d.fields chunks →
      P name (place name chunks.flatten))
    {name : String} {l : Layout} (h : layout types name = .ok l) : P name l := by
  refine layoutWithin_induct (P := fun _ name l => P name l) ?_ h
  intro visiting name d chunks hd hrec _ hchunks
  refine step name d chunks hd hrec (hchunks.imp fun f parts htakes => ?_)
  exact htakes.mono fun n l hl => ⟨layout_of_layoutWithin hl.1, hl.2⟩

/-- The layout of a record is that of the parts of its fields. -/
theorem exists_parts_of_layout {name : String} {l : Layout} (h : layout types name = .ok l) :
    ∃ d chunks, types.get? name = some d ∧ d.isRecord = true ∧
      List.Forall₂ (Takes types (LaidOut types)) d.fields chunks ∧
      l = place name chunks.flatten := by
  obtain ⟨d, chunks, hd, hrec, -, hchunks, rfl⟩ := layoutWithin_eq_ok_iff.mp h
  refine ⟨d, chunks, hd, hrec, hchunks.imp fun f parts htakes => ?_, rfl⟩
  exact htakes.mono fun n l hl => layout_of_layoutWithin hl

/-- A layout has the name of its record. -/
theorem name_of_layout {name : String} {l : Layout} (h : layout types name = .ok l) :
    l.name = name := by
  obtain ⟨d, chunks, -, -, -, rfl⟩ := exists_parts_of_layout h
  rfl

/-! ### Sizes and alignments -/

theorem row_size_eq_two_pow (p : Primitive) : ∃ k, p.row.size = 2 ^ k := by
  cases p
  case int8 | uint8 | bool => exact ⟨0, rfl⟩
  case int16 | uint16 => exact ⟨1, rfl⟩
  case int32 | uint32 | float32 => exact ⟨2, rfl⟩
  case int64 | uint64 | float64 => exact ⟨3, rfl⟩

/-- The parts of a field can be placed if the records inside it take room and have a power
of two as alignment. -/
theorem Takes.sound {inner : String → Layout → Prop} {f : Field} {parts : List Part}
    (h : Takes types inner f parts)
    (hinner : ∀ n l, inner n l → 0 < l.size ∧ ∃ k, l.align = 2 ^ k) :
    ∀ p ∈ parts, p.Sound := by
  have hword : ∀ name kind, (⟨name, kind, 4, 4⟩ : Part).Sound :=
    fun _ _ => ⟨Nat.succ_pos 3, 2, rfl⟩
  -- Scalars have powers of two, records what is known of them, and everything else is a word.
  cases h with
  | primitive p type =>
    obtain ⟨k, hk⟩ := row_size_eq_two_pow p
    rw [List.forall_mem_singleton]
    exact ⟨by rw [hk]; exact Nat.two_pow_pos k, k, hk⟩
  | vector element type =>
    exact List.forall_mem_cons.mpr ⟨hword _ _, List.forall_mem_singleton.mpr (hword _ _)⟩
  | record n l type record layout =>
    rw [List.forall_mem_singleton]
    exact hinner n l layout
  | string | enum | reference => exact List.forall_mem_singleton.mpr (hword _ _)

/-- The parts of all fields can be placed if those of each can. -/
theorem sound_flatten {inner : String → Layout → Prop} {fields : List Field}
    {chunks : List (List Part)} (h : List.Forall₂ (Takes types inner) fields chunks)
    (hinner : ∀ n l, inner n l → 0 < l.size ∧ ∃ k, l.align = 2 ^ k) :
    ∀ p ∈ chunks.flatten, p.Sound := by
  induction h with
  | nil => exact fun p hp => absurd hp List.not_mem_nil
  | cons htakes _ ih =>
    intro p hp
    rw [List.flatten_cons, List.mem_append] at hp
    exact hp.elim (htakes.sound hinner p) (ih p)

/-- The whole takes room. -/
theorem size_place_pos (name : String) {parts : List Part} (hparts : ∀ p ∈ parts, p.Sound) :
    0 < (place name parts).size := by
  rw [place]
  dsimp only
  split
  · decide
  · next hend =>
    obtain ⟨k, hk⟩ := maxAlign_eq_two_pow hparts
    have hle := le_alignUp (endFrom 0 parts) (hk ▸ Nat.two_pow_pos k)
    omega

/-- The alignment of the whole is a power of two. -/
theorem align_place_eq_two_pow (name : String) {parts : List Part}
    (hparts : ∀ p ∈ parts, p.Sound) : ∃ k, (place name parts).align = 2 ^ k := by
  rw [place]
  dsimp only
  split
  · exact ⟨2, rfl⟩
  · exact maxAlign_eq_two_pow hparts

/-- Every record with a layout takes room and has a power of two as alignment. -/
theorem layout_sound {name : String} {l : Layout} (h : layout types name = .ok l) :
    0 < l.size ∧ ∃ k, l.align = 2 ^ k := by
  refine layout_induct (P := fun _ l => 0 < l.size ∧ ∃ k, l.align = 2 ^ k) ?_ h
  intro name d chunks _ _ hchunks
  have hparts := sound_flatten hchunks fun n l hl => hl.2
  exact ⟨size_place_pos name hparts, align_place_eq_two_pow name hparts⟩

/-! ### The slots of a record -/

/-- A list whose images are a list of chunks is itself a list of chunks. -/
theorem exists_chunks {α β : Type} {g : α → β} {xs : List α} {chunks : List (List β)}
    (h : xs.map g = chunks.flatten) :
    ∃ yss : List (List α), xs = yss.flatten ∧ yss.map (List.map g) = chunks := by
  induction chunks generalizing xs with
  | nil => exact ⟨[], List.map_eq_nil_iff.mp h, rfl⟩
  | cons chunk rest ih =>
    obtain ⟨here, others, rfl, rfl, hothers⟩ := List.map_eq_append_iff.mp h
    obtain ⟨yss, rfl, rfl⟩ := ih hothers
    exact ⟨here :: yss, rfl, rfl⟩

/-- The slots that the fields of a record take, field by field. -/
def FieldSlots (types : Schema) (fields : List Field) (chunks : List (List Slot)) : Prop :=
  List.Forall₂ (fun f chunk => Takes types (LaidOut types) f (chunk.map (·.toPart))) fields chunks

/-- Every slot of a record is one of a field. -/
theorem FieldSlots.exists_takes {fields : List Field} {chunks : List (List Slot)}
    (h : FieldSlots types fields chunks) {s : Slot} (hs : s ∈ chunks.flatten) :
    ∃ f ∈ fields, ∃ chunk : List Slot, s ∈ chunk ∧
      Takes types (LaidOut types) f (chunk.map (·.toPart)) := by
  unfold FieldSlots at h
  induction h with
  | nil => exact absurd hs List.not_mem_nil
  | cons htakes _ ih =>
    rw [List.flatten_cons, List.mem_append] at hs
    rcases hs with hs | hs
    · exact ⟨_, List.mem_cons_self, _, hs, htakes⟩
    · obtain ⟨f, hf, chunk, hchunk⟩ := ih hs
      exact ⟨f, List.mem_cons_of_mem _ hf, chunk, hchunk⟩

/-- Only a field with the name of a record takes an inline record. -/
theorem Takes.layout_of_record {inner : String → Layout → Prop} {f : Field} {parts : List Part}
    (h : Takes types inner f parts) {p : Part} (hp : p ∈ parts) {n : String}
    (hkind : p.kind = .record n) : ∃ l, inner n l ∧ p.size = l.size ∧ p.align = l.align := by
  -- Only a field of a record type has a part of that kind.
  cases h with
  | record n' l type record layout =>
    obtain rfl := List.mem_singleton.mp hp
    obtain rfl : n' = n := SlotKind.record.inj hkind
    exact ⟨l, layout, rfl, rfl⟩
  | vector element type =>
    rcases List.mem_cons.mp hp with rfl | hp
    · cases hkind
    · obtain rfl := List.mem_singleton.mp hp
      cases hkind
  | primitive | string | enum | reference =>
    obtain rfl := List.mem_singleton.mp hp
    cases hkind

/-- A field with the name of a record takes an inline record. -/
theorem Takes.exists_record {inner : String → Layout → Prop} {f : Field} {parts : List Part}
    (h : Takes types inner f parts) {n : String} (hrec : types.isRecord n = true)
    (htype : f.type = .named n) : ∃ p ∈ parts, p.kind = .record n := by
  have hname : ∀ m, f.type = .named m → m = n := fun m hm =>
    FieldType.named.inj (hm.symm.trans htype)
  cases h with
  | record m l type record layout =>
    exact ⟨_, List.mem_singleton_self _, congrArg SlotKind.record (hname m type)⟩
  | enum m type enum =>
    -- a record is no enumeration
    rw [hname m type, Schema.isEnum_eq_false_of_isRecord hrec] at enum
    cases enum
  | reference m type noEnum noRecord =>
    rw [hname m type, hrec] at noRecord
    cases noRecord
  | primitive _ type | string type | vector _ type => rw [type] at htype; cases htype

/-- The slots of a record that is placed are those of its fields. -/
theorem exists_fieldSlots {name : String} {l : Layout} (h : layout types name = .ok l) :
    ∃ d chunks, types.get? name = some d ∧ d.isRecord = true ∧ l.slots = chunks.flatten ∧
      FieldSlots types d.fields chunks := by
  obtain ⟨d, parts, hd, hrec, hparts, rfl⟩ := exists_parts_of_layout h
  obtain ⟨chunks, hslots, rfl⟩ := exists_chunks (map_toPart_placeFrom 0 parts.flatten)
  exact ⟨d, chunks, hd, hrec, hslots, List.forall₂_map_right_iff.mp hparts⟩

/-- **An inline record is laid out like any other.** -/
theorem layout_of_record_slot {name : String} {l : Layout} (h : layout types name = .ok l)
    {s : Slot} (hs : s ∈ l.slots) {n : String} (hkind : s.kind = .record n) :
    ∃ inner, layout types n = .ok inner ∧ s.size = inner.size ∧ s.align = inner.align := by
  obtain ⟨d, chunks, -, -, hslots, hfields⟩ := exists_fieldSlots h
  obtain ⟨f, -, chunk, hchunk, htakes⟩ := hfields.exists_takes (hslots ▸ hs)
  exact htakes.layout_of_record (List.mem_map_of_mem hchunk) hkind

/-- The parts of a record can be placed. -/
theorem exists_place_of_layout {name : String} {l : Layout} (h : layout types name = .ok l) :
    ∃ parts, (∀ p ∈ parts, p.Sound) ∧ l = place name parts := by
  obtain ⟨d, chunks, -, -, hchunks, rfl⟩ := exists_parts_of_layout h
  exact ⟨chunks.flatten, sound_flatten hchunks fun n l hl => layout_sound hl, rfl⟩

/-! ### Bounds and alignment -/

theorem toPart_mem_of_mem_placeFrom {start : Nat} {parts : List Part} {s : Slot}
    (h : s ∈ placeFrom start parts) : s.toPart ∈ parts := by
  have hmem := List.mem_map_of_mem (f := fun s : Slot => s.toPart) h
  rwa [map_toPart_placeFrom] at hmem

/-- A slot lies inside its record. -/
theorem stop_le_size {name : String} {l : Layout} (h : layout types name = .ok l) {s : Slot}
    (hs : s ∈ l.slots) : s.stop ≤ l.size := by
  obtain ⟨parts, hparts, rfl⟩ := exists_place_of_layout h
  have hstop : s.stop ≤ endFrom 0 parts := stop_le_endFrom hparts s hs
  obtain ⟨k, hk⟩ := maxAlign_eq_two_pow hparts
  have hround := le_alignUp (endFrom 0 parts) (hk ▸ Nat.two_pow_pos k)
  change s.stop ≤ if endFrom 0 parts = 0 then pointerSize else alignUp (endFrom 0 parts) _
  split <;> omega

/-- A slot is aligned inside its record. -/
theorem align_dvd_offset {name : String} {l : Layout} (h : layout types name = .ok l) {s : Slot}
    (hs : s ∈ l.slots) : s.align ∣ s.offset := by
  obtain ⟨parts, hparts, rfl⟩ := exists_place_of_layout h
  obtain ⟨pre, post, hsplit⟩ := List.append_of_mem hs
  exact (isLeast_offset_placeFrom hparts hsplit).1.1

/-- The alignment of a slot divides that of its record. -/
theorem align_dvd_align {name : String} {l : Layout} (h : layout types name = .ok l) {s : Slot}
    (hs : s ∈ l.slots) : s.align ∣ l.align := by
  obtain ⟨parts, hparts, rfl⟩ := exists_place_of_layout h
  have hmem : s.toPart ∈ parts := toPart_mem_of_mem_placeFrom hs
  change s.align ∣ if parts.isEmpty then pointerSize else maxAlign parts
  rw [if_neg (by simpa using List.ne_nil_of_mem hmem)]
  exact dvd_maxAlign hparts hmem

/-- The alignment of a record divides its size, so the elements of a vector are all
aligned if the first one is. -/
theorem align_dvd_size {name : String} {l : Layout} (h : layout types name = .ok l) :
    l.align ∣ l.size := by
  obtain ⟨parts, hparts, rfl⟩ := exists_place_of_layout h
  rw [place]
  dsimp only
  cases parts with
  | nil => exact Nat.dvd_refl pointerSize
  | cons p rest =>
    have hpos := endFrom_pos hparts (List.cons_ne_nil p rest)
    rw [if_neg (Nat.pos_iff_ne_zero.mp hpos)]
    exact dvd_alignUp _ _

end Bindery.Abi
