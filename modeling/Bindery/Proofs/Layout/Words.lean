import Bindery.Proofs.Layout.Records

/-!
# Layouts in words of 32 bits

An address of linear memory is a word of 32 bits, and so are the offsets and sizes of records: a sum
or a product that is no word is refused. Here the placing of parts is written down with words, step
by step (`place32?`), beside the placing with numbers that have no bound.

Placing only goes upward, so no step gives more than the size of the whole. Hence the steps with
words are refused exactly when that size is no word, and otherwise they give what the steps with
numbers give (`place32?_eq`). Neither of them wraps around.
-/

namespace Bindery.Abi

/-! ### Arithmetic of words -/

/-- A number as a word, if it is one. -/
def word? (n : Nat) : Option UInt32 := if n < UInt32.size then some (.ofNat n) else none

/-- The sum of two words. -/
def add32? (a b : UInt32) : Option UInt32 := word? (a.toNat + b.toNat)

/-- The product of two words. -/
def mul32? (a b : UInt32) : Option UInt32 := word? (a.toNat * b.toNat)

/-- The least multiple of `a` that is at least `n`: the quotient, rounded up, times `a`. -/
def alignUp32? (n a : UInt32) : Option UInt32 :=
  mul32? (if n % a = 0 then n / a else n / a + 1) a

theorem word?_of_lt {n : Nat} (h : n < UInt32.size) : word? n = some (.ofNat n) := if_pos h

theorem word?_of_le {n : Nat} (h : UInt32.size ≤ n) : word? n = none := if_neg (Nat.not_lt.mpr h)

/-- Rounding up is rounding up the quotient. -/
theorem alignUp_eq_mul (n : Nat) {a : Nat} (ha : 0 < a) :
    alignUp n a = (if n % a = 0 then n / a else n / a + 1) * a := by
  have hsplit := Nat.div_add_mod n a
  have hlt := Nat.mod_lt n ha
  have hquotient : (n + a - 1) / a = n / a + (n % a + a - 1) / a := by
    have hsum : n + a - 1 = a * (n / a) + (n % a + a - 1) := by omega
    rw [hsum, Nat.mul_add_div ha]
  rw [alignUp, hquotient]
  split
  · next hzero =>
    have hnone : (n % a + a - 1) / a = 0 := Nat.div_eq_of_lt (by omega)
    rw [hnone, Nat.add_zero]
  · next hrest =>
    -- the remainder and `a - 1` together make one more multiple, and no second one
    have hone : (n % a + a - 1) / a = 1 := by
      rw [Nat.div_eq_iff ha]
      omega
    rw [hone]

theorem alignUp32?_eq (n : UInt32) {a : UInt32} (ha : 0 < a.toNat) :
    alignUp32? n a = word? (alignUp n.toNat a.toNat) := by
  have hmod : n % a = 0 ↔ n.toNat % a.toNat = 0 := by
    rw [← UInt32.toNat_inj, UInt32.toNat_mod, UInt32.toNat_zero]
  rw [alignUp32?, mul32?, alignUp_eq_mul _ ha]
  by_cases hzero : n % a = 0
  · rw [if_pos hzero, if_pos (hmod.mp hzero), UInt32.toNat_div]
  · rw [if_neg hzero, if_neg (mt hmod.mpr hzero)]
    -- with a remainder `a` is not one, so the quotient is not the greatest word
    have hlt : n.toNat / a.toNat + 1 < UInt32.size := by
      have hone : a.toNat ≠ 1 := fun hone => hzero (hmod.mpr (by rw [hone, Nat.mod_one]))
      have hhalf : n.toNat / a.toNat ≤ n.toNat / 2 := Nat.div_le_div_left (by omega) (by decide)
      have hn := n.toNat_lt_size
      have hsize : UInt32.size = 4294967296 := rfl
      omega
    rw [UInt32.toNat_add, UInt32.toNat_div, UInt32.toNat_one, Nat.mod_eq_of_lt hlt]

/-! ### Placing -/

/-- Places parts one after the other: where they start, and where the last one ends. -/
def placeFrom32? : UInt32 → List Part → Option (List UInt32 × UInt32)
  | offset, [] => some ([], offset)
  | offset, p :: rest => do
    let start ← alignUp32? offset (.ofNat p.align)
    let stop ← add32? start (.ofNat p.size)
    let (starts, stop) ← placeFrom32? stop rest
    return (start :: starts, stop)

/-- The offsets and the size of the record with these parts. -/
def place32? (parts : List Part) : Option (List UInt32 × UInt32) := do
  let (offsets, stop) ← placeFrom32? 0 parts
  let size ← if stop = 0 then some 4 else alignUp32? stop (.ofNat (maxAlign parts))
  return (offsets, size)

/-- A part whose size and alignment are words. -/
structure Part.Words (p : Part) : Prop where
  size : p.size < UInt32.size
  align : p.align < UInt32.size

theorem toNat_ofNat_word {n : Nat} (h : n < UInt32.size) : (UInt32.ofNat n).toNat = n :=
  UInt32.toNat_ofNat_of_lt' h

/-- **Placing with words is refused exactly when the end is no word**, and otherwise it is placing
with numbers. -/
theorem placeFrom32?_eq {start : Nat} (hstart : start < UInt32.size) {parts : List Part}
    (hsound : ∀ p ∈ parts, p.Sound) (hwords : ∀ p ∈ parts, p.Words) :
    placeFrom32? (.ofNat start) parts =
      if endFrom start parts < UInt32.size then
        some ((placeFrom start parts).map fun s => .ofNat s.offset, .ofNat (endFrom start parts))
      else none := by
  induction parts generalizing start with
  | nil => rw [placeFrom32?, endFrom, if_pos hstart, placeFrom, List.map_nil]
  | cons p rest ih =>
    obtain ⟨hp, hrest⟩ := List.forall_mem_cons.mp hsound
    obtain ⟨hpw, hrestw⟩ := List.forall_mem_cons.mp hwords
    have hend := le_endFrom (alignUp start p.align + p.size) hrest
    have halign : 0 < (UInt32.ofNat p.align).toNat := by
      rw [toNat_ofNat_word hpw.align]
      exact hp.align_pos
    rw [placeFrom32?, alignUp32?_eq _ halign, toNat_ofNat_word hstart, toNat_ofNat_word hpw.align,
      endFrom, placeFrom, List.map_cons]
    -- a start or a stop that is no word lies before the end
    by_cases hbegin : alignUp start p.align < UInt32.size
    · rw [word?_of_lt hbegin]
      simp only [Option.bind_eq_bind, Option.bind_some, add32?, toNat_ofNat_word hbegin,
        toNat_ofNat_word hpw.size]
      by_cases hstop : alignUp start p.align + p.size < UInt32.size
      · rw [word?_of_lt hstop, Option.bind_some, ih hstop hrest hrestw]
        split <;> rfl
      · rw [word?_of_le (Nat.not_lt.mp hstop), if_neg (by omega)]
        rfl
    · rw [word?_of_le (Nat.not_lt.mp hbegin), if_neg (by omega)]
      rfl

/-- The largest alignment of parts is a word if all alignments are. -/
theorem maxAlign_lt {parts : List Part} (hwords : ∀ p ∈ parts, p.Words) :
    maxAlign parts < UInt32.size := by
  rcases foldl_max_mem 1 parts with h | ⟨p, hp, h⟩
  · rw [maxAlign, h]
    decide
  · rw [maxAlign, ← h]
    exact (hwords p hp).align

/-- **A record placed with words is the record placed with numbers**, and it is refused exactly when
its size is no word. -/
theorem place32?_eq (name : String) {parts : List Part} (hsound : ∀ p ∈ parts, p.Sound)
    (hwords : ∀ p ∈ parts, p.Words) :
    place32? parts =
      if (place name parts).size < UInt32.size then
        some ((place name parts).slots.map fun s => .ofNat s.offset,
          .ofNat (place name parts).size)
      else none := by
  have hplaced : placeFrom32? 0 parts = _ := @placeFrom32?_eq 0 (by decide) parts hsound hwords
  have hmax := maxAlign_lt hwords
  obtain ⟨k, hk⟩ := maxAlign_eq_two_pow hsound
  have hpos : 0 < maxAlign parts := hk ▸ Nat.two_pow_pos k
  have hround := le_alignUp (endFrom 0 parts) hpos
  change place32? parts = if (if endFrom 0 parts = 0 then pointerSize
    else alignUp (endFrom 0 parts) (maxAlign parts)) < UInt32.size then _ else none
  rw [place32?, hplaced]
  -- The words hold every number that comes up if they hold the last one, as the offsets before it
  -- are smaller.
  by_cases hend : endFrom 0 parts < UInt32.size
  · rw [if_pos hend]
    have hzero : UInt32.ofNat (endFrom 0 parts) = 0 ↔ endFrom 0 parts = 0 := by
      rw [← UInt32.toNat_inj, toNat_ofNat_word hend, UInt32.toNat_zero]
    simp only [Option.bind_eq_bind, Option.bind_some]
    by_cases hempty : endFrom 0 parts = 0
    · have hsize : (place name parts).size = 4 := if_pos hempty
      rw [if_pos (hzero.mpr hempty), if_pos hempty, if_pos (by decide), hsize]
      rfl
    · have hsize : (place name parts).size = alignUp (endFrom 0 parts) (maxAlign parts) :=
        if_neg hempty
      rw [if_neg (mt hzero.mp hempty), if_neg hempty,
        alignUp32?_eq _ (by rw [toNat_ofNat_word hmax]; exact hpos), toNat_ofNat_word hend,
        toNat_ofNat_word hmax, word?, hsize]
      split <;> rfl
  · -- a record that ends beyond the words is larger than that
    rw [if_neg hend, if_neg (by rw [if_neg] <;> omega)]
    rfl

/-! ### Records -/

variable {types : Schema}

/-- **A layout that is computed in words**: the parts of the record, placed with words, have the
offsets and the size of the layout. -/
def InWords (types : Schema) (name : String) (l : Layout) : Prop :=
  ∃ d chunks offsets size, types.get? name = some d ∧
    List.Forall₂ (Takes types (LaidOut types)) d.fields chunks ∧
    place32? chunks.flatten = some (offsets, size) ∧
    offsets.map UInt32.toNat = l.slots.map (·.offset) ∧ size.toNat = l.size

/-- A slot is at least as large as its alignment. -/
theorem align_le_size {name : String} {l : Layout} (h : layout types name = .ok l) {s : Slot}
    (hs : s ∈ l.slots) : s.align ≤ s.size := by
  obtain ⟨d, chunks, -, -, hslots, hfields⟩ := exists_fieldSlots h
  obtain ⟨f, -, chunk, hchunk, htakes⟩ := hfields.exists_takes (hslots ▸ hs)
  have hmem : s.toPart ∈ chunk.map (·.toPart) := List.mem_map_of_mem hchunk
  generalize chunk.map (·.toPart) = parts at htakes hmem
  -- A record is at least as large as it is aligned; the other parts are as large as they are
  -- aligned.
  cases htakes with
  | record n inner type record layout =>
    rw [List.mem_singleton.mp hmem]
    exact Nat.le_of_dvd (layout_sound layout).1 (align_dvd_size layout)
  | vector element type =>
    rcases List.mem_cons.mp hmem with hpart | hmem
    · rw [hpart]
    · rw [List.mem_singleton.mp hmem]
  | primitive | string | enum | reference => rw [List.mem_singleton.mp hmem]

/-- **A layout whose size is a word is computed in words.** -/
theorem inWords_of_layout {name : String} {l : Layout} (h : layout types name = .ok l)
    (hfits : l.size < UInt32.size) : InWords types name l := by
  obtain ⟨d, chunks, hd, -, htakes, rfl⟩ := exists_parts_of_layout h
  have hsound := sound_flatten htakes fun n l hl => layout_sound hl
  -- every slot lies inside the record, so its size is a word, and its alignment is no larger
  have hwords : ∀ p ∈ chunks.flatten, p.Words := by
    intro p hp
    rw [← map_toPart_placeFrom 0 chunks.flatten] at hp
    obtain ⟨s, hs, rfl⟩ := List.mem_map.mp hp
    have hstop : s.offset + s.size ≤ _ := stop_le_size h hs
    have halign := align_le_size h hs
    exact ⟨by omega, by omega⟩
  refine ⟨d, chunks, _, _, hd, htakes, (place32?_eq name hsound hwords).trans (if_pos hfits), ?_,
    toNat_ofNat_word hfits⟩
  rw [List.map_map]
  refine List.map_congr_left fun s hs => toNat_ofNat_word ?_
  have hstop : s.offset + s.size ≤ _ := stop_le_size h hs
  omega

end Bindery.Abi
