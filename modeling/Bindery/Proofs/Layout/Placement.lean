import Bindery.Abi.Layout
import Mathlib

/-!
# Placing parts

Parts are placed one after the other, each at the least multiple of its alignment that
is free. This file is about the placing alone: any list of parts that take room and have
a power of two as alignment (`Part.Sound`) is placed in order, without overlap and
without a gap that could be smaller.

* `isLeast_alignUp` — rounding up gives the least multiple;
* `isLeast_offset_placeFrom` — every part starts at the least aligned offset behind the
  one before it;
* `pairwise_placeFrom` — a part ends before the next ones start;
* `isGreatest_maxAlign`, `dvd_maxAlign` — the alignment of the whole is the largest one,
  and every alignment divides it, since of two powers of two the smaller divides the
  larger.
-/

namespace Bindery.Abi

/-! ### Rounding up -/

theorem dvd_alignUp (n a : Nat) : a ∣ alignUp n a := Nat.dvd_mul_left _ _

theorem le_alignUp (n : Nat) {a : Nat} (ha : 0 < a) : n ≤ alignUp n a := by
  -- the remainder that rounding down loses is less than `a`
  have h := Nat.div_add_mod (n + a - 1) a
  have hlt := Nat.mod_lt (n + a - 1) ha
  rw [Nat.mul_comm] at h
  unfold alignUp
  omega

theorem alignUp_le {n a m : Nat} (ha : 0 < a) (hm : a ∣ m) (h : n ≤ m) : alignUp n a ≤ m := by
  obtain ⟨k, rfl⟩ := hm
  rw [alignUp, Nat.mul_comm a k]
  refine Nat.mul_le_mul_right a ?_
  rw [← Nat.lt_succ_iff, Nat.div_lt_iff_lt_mul ha, Nat.succ_mul, Nat.mul_comm k a]
  omega

/-- **Rounding up gives the least multiple.** -/
theorem isLeast_alignUp (n : Nat) {a : Nat} (ha : 0 < a) :
    IsLeast {k | a ∣ k ∧ n ≤ k} (alignUp n a) :=
  ⟨⟨dvd_alignUp n a, le_alignUp n ha⟩, fun _ hk => alignUp_le ha hk.1 hk.2⟩

/-! ### Parts that can be placed -/

/-- A part takes room, and its alignment is a power of two. -/
def Part.Sound (p : Part) : Prop := 0 < p.size ∧ ∃ k, p.align = 2 ^ k

theorem Part.Sound.align_pos {p : Part} (h : p.Sound) : 0 < p.align := by
  obtain ⟨-, k, hk⟩ := h
  rw [hk]
  exact Nat.two_pow_pos k

/-! ### Slots in order -/

/-- Where a slot ends. -/
def Slot.stop (s : Slot) : Nat := s.offset + s.size

/-- Where the last of some slots ends; without any, where they would start. -/
def stopFrom (start : Nat) (slots : List Slot) : Nat :=
  (slots.getLast?.map Slot.stop).getD start

@[simp] theorem stopFrom_cons (start : Nat) (s : Slot) (slots : List Slot) :
    stopFrom start (s :: slots) = stopFrom s.stop slots := by
  cases h : slots.getLast? <;> simp [stopFrom, List.getLast?_cons, h]

/-- Placing keeps the parts and their order. -/
theorem map_toPart_placeFrom (start : Nat) (parts : List Part) :
    (placeFrom start parts).map (·.toPart) = parts := by
  induction parts generalizing start with
  | nil => rfl
  | cons p rest ih => rw [placeFrom, List.map_cons, ih]

/-- The end that is computed is the end of the last slot. -/
theorem stopFrom_placeFrom (start : Nat) (parts : List Part) :
    stopFrom start (placeFrom start parts) = endFrom start parts := by
  induction parts generalizing start with
  | nil => rfl
  | cons p rest ih =>
    rw [placeFrom, stopFrom_cons, endFrom]
    exact ih _

/-- **Every part starts at the least aligned offset** behind the slots before it. -/
theorem isLeast_offset_placeFrom {start : Nat} {parts : List Part}
    (hparts : ∀ p ∈ parts, p.Sound) {pre post : List Slot} {s : Slot}
    (h : placeFrom start parts = pre ++ s :: post) :
    IsLeast {k | s.align ∣ k ∧ stopFrom start pre ≤ k} s.offset := by
  induction parts generalizing start pre with
  | nil => cases pre <;> cases h
  | cons p rest ih =>
    obtain ⟨hp, hrest⟩ := List.forall_mem_cons.mp hparts
    rw [placeFrom] at h
    cases pre with
    | nil =>
      obtain ⟨rfl, -⟩ := List.cons.inj h
      exact isLeast_alignUp start hp.align_pos
    | cons q pre =>
      -- the slots before it start with this part, which moves the beginning
      obtain ⟨rfl, htail⟩ := List.cons.inj h
      rw [stopFrom_cons]
      exact ih hrest htail

/-- No slot starts before the place where placing begins. -/
theorem le_offset_placeFrom {start : Nat} {parts : List Part}
    (hparts : ∀ p ∈ parts, p.Sound) : ∀ s ∈ placeFrom start parts, start ≤ s.offset := by
  induction parts generalizing start with
  | nil => exact fun s hs => absurd hs List.not_mem_nil
  | cons p rest ih =>
    obtain ⟨hp, hrest⟩ := List.forall_mem_cons.mp hparts
    have hstart := le_alignUp start hp.align_pos
    intro s hs
    rw [placeFrom, List.mem_cons] at hs
    -- The first part starts behind the rounding, and all others behind its end.
    rcases hs with rfl | hs
    · exact hstart
    · have hs' := ih hrest s hs
      omega

/-- **Slots do not overlap**: each ends before the next ones start. -/
theorem pairwise_placeFrom {start : Nat} {parts : List Part} (hparts : ∀ p ∈ parts, p.Sound) :
    (placeFrom start parts).Pairwise fun s t => s.stop ≤ t.offset := by
  induction parts generalizing start with
  | nil => exact List.Pairwise.nil
  | cons p rest ih =>
    have hrest := (List.forall_mem_cons.mp hparts).2
    rw [placeFrom, List.pairwise_cons]
    exact ⟨fun t ht => le_offset_placeFrom hrest t ht, ih hrest⟩

theorem le_endFrom (start : Nat) {parts : List Part} (hparts : ∀ p ∈ parts, p.Sound) :
    start ≤ endFrom start parts := by
  induction parts generalizing start with
  | nil => exact Nat.le_refl start
  | cons p rest ih =>
    obtain ⟨hp, hrest⟩ := List.forall_mem_cons.mp hparts
    have hstart := le_alignUp start hp.align_pos
    have htail := ih (alignUp start p.align + p.size) hrest
    rw [endFrom]
    omega

/-- No slot reaches beyond the end. -/
theorem stop_le_endFrom {start : Nat} {parts : List Part} (hparts : ∀ p ∈ parts, p.Sound) :
    ∀ s ∈ placeFrom start parts, s.stop ≤ endFrom start parts := by
  induction parts generalizing start with
  | nil => exact fun s hs => absurd hs List.not_mem_nil
  | cons p rest ih =>
    have hrest := (List.forall_mem_cons.mp hparts).2
    intro s hs
    rw [placeFrom, List.mem_cons] at hs
    rw [endFrom]
    rcases hs with rfl | hs
    · exact le_endFrom _ hrest
    · exact ih hrest s hs

/-- Something is placed behind the beginning as soon as there is a part. -/
theorem endFrom_pos {parts : List Part} (hparts : ∀ p ∈ parts, p.Sound) (hne : parts ≠ []) :
    0 < endFrom 0 parts := by
  cases parts with
  | nil => exact absurd rfl hne
  | cons p rest =>
    obtain ⟨hp, hrest⟩ := List.forall_mem_cons.mp hparts
    have htail := le_endFrom (alignUp 0 p.align + p.size) hrest
    have hsize := hp.1
    rw [endFrom]
    omega

/-! ### The largest alignment -/

theorem le_foldl_max (m : Nat) (parts : List Part) :
    m ≤ parts.foldl (fun m p => max m p.align) m ∧
      ∀ p ∈ parts, p.align ≤ parts.foldl (fun m p => max m p.align) m := by
  induction parts generalizing m with
  | nil => exact ⟨Nat.le_refl m, fun p hp => absurd hp List.not_mem_nil⟩
  | cons q rest ih =>
    obtain ⟨hm, hrest⟩ := ih (max m q.align)
    rw [List.foldl_cons]
    exact ⟨by omega, List.forall_mem_cons.mpr ⟨by omega, hrest⟩⟩

theorem foldl_max_mem (m : Nat) (parts : List Part) :
    parts.foldl (fun m p => max m p.align) m = m ∨
      ∃ p ∈ parts, p.align = parts.foldl (fun m p => max m p.align) m := by
  induction parts generalizing m with
  | nil => exact Or.inl rfl
  | cons q rest ih =>
    rw [List.foldl_cons]
    rcases ih (max m q.align) with h | ⟨p, hp, h⟩
    · rcases Nat.le_total q.align m with hle | hle
      · exact Or.inl (h.trans (Nat.max_eq_left hle))
      · exact Or.inr ⟨q, List.mem_cons_self, (h.trans (Nat.max_eq_right hle)).symm⟩
    · exact Or.inr ⟨p, List.mem_cons_of_mem q hp, h⟩

/-- **The alignment of the whole is the largest one.** -/
theorem isGreatest_maxAlign {parts : List Part} (hparts : ∀ p ∈ parts, p.Sound)
    (hne : parts ≠ []) : IsGreatest {a | ∃ p ∈ parts, p.align = a} (maxAlign parts) := by
  have hle := (le_foldl_max 1 parts).2
  refine ⟨?_, fun a ⟨p, hp, ha⟩ => ha ▸ hle p hp⟩
  rcases foldl_max_mem 1 parts with h | h
  · -- the fold starts at one, which no alignment is below
    obtain ⟨p, hp⟩ := List.exists_mem_of_ne_nil parts hne
    refine ⟨p, hp, Nat.le_antisymm (hle p hp) ?_⟩
    rw [maxAlign, h]
    exact (hparts p hp).align_pos
  · exact h

/-- The largest alignment is a power of two. -/
theorem maxAlign_eq_two_pow {parts : List Part} (hparts : ∀ p ∈ parts, p.Sound) :
    ∃ k, maxAlign parts = 2 ^ k := by
  rcases foldl_max_mem 1 parts with h | ⟨p, hp, h⟩
  · exact ⟨0, h⟩
  · obtain ⟨-, k, hk⟩ := hparts p hp
    exact ⟨k, h.symm.trans hk⟩

/-- **Every alignment divides the largest one.** -/
theorem dvd_maxAlign {parts : List Part} (hparts : ∀ p ∈ parts, p.Sound) {p : Part}
    (hp : p ∈ parts) : p.align ∣ maxAlign parts := by
  obtain ⟨-, k, hk⟩ := hparts p hp
  obtain ⟨n, hn⟩ := maxAlign_eq_two_pow hparts
  -- of two powers of two the smaller divides the larger
  have hle : p.align ≤ maxAlign parts := (le_foldl_max 1 parts).2 p hp
  rw [hk, hn] at hle ⊢
  exact Nat.pow_dvd_pow 2 ((Nat.pow_le_pow_iff_right (by decide)).mp hle)

end Bindery.Abi
