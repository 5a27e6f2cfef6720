import Bindery.Text.Basic
import Mathlib

/-!
# Beginnings and endings of texts

`dropPrefix?` and `dropSuffix?` are the inverses of putting a text in front and of
putting one behind: each succeeds exactly when the text has that form, and then
gives the other part. Every reading of a type or of a name goes through them. Where the
letters and the digits of ASCII lie is said once, in front of that (`toNat_of_isAlphanum`).
Cutting a text is the library's splitting (`cutList_eq_splitOn`), and a list with commas is
put together piece by piece (`commaSep_induction`). At the end stand the two facts about lists
of texts that emitters need: leaving out repetitions loses nothing (`mem_distinct_iff`) and
leaves none (`nodup_distinct`).
-/

namespace Bindery.Text

/-! ### Letters and digits -/

theorem toNat_of_isDigit {c : Char} (h : c.isDigit = true) : 48 ≤ c.toNat ∧ c.toNat ≤ 57 := by
  rw [Char.isDigit, Bool.and_eq_true, decide_eq_true_eq, decide_eq_true_eq] at h
  exact h

theorem toNat_of_isAlpha {c : Char} (h : c.isAlpha = true) :
    (65 ≤ c.toNat ∧ c.toNat ≤ 90) ∨ (97 ≤ c.toNat ∧ c.toNat ≤ 122) := by
  rw [Char.isAlpha, Char.isUpper, Char.isLower, Bool.or_eq_true, decide_eq_true_eq,
    Bool.and_eq_true, decide_eq_true_eq, decide_eq_true_eq] at h
  exact h

theorem toNat_of_isAlphanum {c : Char} (h : c.isAlphanum = true) :
    48 ≤ c.toNat ∧ c.toNat ≤ 122 := by
  rw [Char.isAlphanum, Bool.or_eq_true] at h
  obtain halpha | hdigit := h
  · have := toNat_of_isAlpha halpha
    omega
  · have := toNat_of_isDigit hdigit
    omega

/-! ### Beginnings and endings -/

theorem dropPrefixList?_eq_some_iff {start cs rest : List Char} :
    dropPrefixList? start cs = some rest ↔ cs = start ++ rest := by
  induction start generalizing cs with
  | nil => simp [dropPrefixList?]
  -- Along the prefix, with the text growing shorter in step.
  | cons p ps ih =>
    cases cs with
    | nil => simp [dropPrefixList?]
    | cons c cs =>
      by_cases h : p = c
      · subst h
        rw [dropPrefixList?, if_pos rfl, ih, List.cons_append, List.cons.injEq]
        exact ⟨fun h => ⟨rfl, h⟩, fun h => h.2⟩
      · rw [dropPrefixList?, if_neg h, List.cons_append, List.cons.injEq]
        exact ⟨nofun, fun hc => absurd hc.1.symm h⟩

/-- A text has a beginning exactly when it is that beginning and a rest. -/
theorem dropPrefix?_eq_some_iff {start s rest : String} :
    dropPrefix? start s = some rest ↔ s = start ++ rest := by
  rw [dropPrefix?, Option.map_eq_some_iff]
  constructor
  · rintro ⟨cs, hcs, rfl⟩
    rw [dropPrefixList?_eq_some_iff] at hcs
    apply String.toList_injective
    rw [hcs, String.toList_append, String.toList_ofList]
  · rintro rfl
    refine ⟨rest.toList, ?_, String.ofList_toList⟩
    rw [dropPrefixList?_eq_some_iff, String.toList_append]

/-- A text has an ending exactly when it is a rest and that ending. -/
theorem dropSuffix?_eq_some_iff {stop s rest : String} :
    dropSuffix? stop s = some rest ↔ s = rest ++ stop := by
  rw [dropSuffix?, Option.map_eq_some_iff]
  constructor
  -- From behind, a suffix is a prefix.
  · rintro ⟨cs, hcs, rfl⟩
    rw [dropPrefixList?_eq_some_iff] at hcs
    have hs : s.toList = cs.reverse ++ stop.toList := by
      rw [← List.reverse_reverse s.toList, hcs, List.reverse_append, List.reverse_reverse]
    apply String.toList_injective
    rw [hs, String.toList_append, String.toList_ofList]
  · rintro rfl
    refine ⟨rest.toList.reverse, ?_, ?_⟩
    · rw [dropPrefixList?_eq_some_iff, String.toList_append, List.reverse_append]
    · rw [List.reverse_reverse, String.ofList_toList]

/-- The first piece of a text that is cut holds the first character, unless the
text begins with the separator. -/
theorem cutList_cons {sep c : Char} (cs : List Char) (h : c ≠ sep) :
    ∃ piece rest, cutList sep (c :: cs) = (c :: piece) :: rest := by
  rw [cutList, List.foldr_cons, if_neg h]
  split
  · exact ⟨[], [], rfl⟩
  · next piece rest _ => exact ⟨piece, rest, rfl⟩

/-- Cutting a text is splitting it at the separator, so that the library's laws on splitting
and joining hold for it. -/
theorem cutList_eq_splitOn (sep : Char) (cs : List Char) : cutList sep cs = cs.splitOn sep := by
  induction cs with
  | nil => rfl
  | cons c cs ih =>
    rw [cutList] at ih
    rw [cutList, List.foldr_cons, ih, List.splitOn_cons_eq_if_modifyHead]
    obtain ⟨piece, rest, hpieces⟩ := List.exists_cons_of_ne_nil (List.splitOn_ne_nil sep cs)
    rw [hpieces, List.modifyHead_cons]
    by_cases h : c = sep
    · rw [if_pos h, if_pos (beq_iff_eq.mpr h)]
    · rw [if_neg h, if_neg (by simpa using h)]

/-- What holds of pieces and is kept by a comma between two texts holds of the whole list. -/
theorem commaSep_induction {P : String → Prop} {pieces : List String} (hnone : P "")
    (hcomma : ∀ p s, P p → P s → P (p ++ ", " ++ s)) (h : ∀ p ∈ pieces, P p) :
    P (commaSep pieces) := by
  rw [commaSep]
  induction pieces with
  | nil => exact hnone
  | cons p rest ih =>
    obtain ⟨hp, hrest⟩ := List.forall_mem_cons.mp h
    cases rest with
    | nil => simpa using hp
    | cons q rest =>
      rw [String.intercalate_cons_cons]
      exact hcomma p _ hp (ih hrest)

/-! ### Distinct members -/

/-- What is collected so far and what is still to come. -/
theorem mem_foldl_distinct {α : Type} [BEq α] [LawfulBEq α] {x : α} (xs seen : List α) :
    x ∈ xs.foldl (fun seen x => if seen.contains x then seen else seen ++ [x]) seen ↔
      x ∈ seen ∨ x ∈ xs := by
  induction xs generalizing seen with
  | nil => simp
  | cons y ys ih =>
    rw [List.foldl_cons, ih, List.mem_cons]
    by_cases hy : y ∈ seen
    · -- a member that was seen before adds nothing
      rw [if_pos (List.contains_iff_mem.mpr hy), ← or_assoc]
      refine or_congr_left (or_iff_left_of_imp ?_).symm
      rintro rfl
      exact hy
    · rw [if_neg (by simpa using hy), List.mem_append, List.mem_singleton, or_assoc]

/-- Leaving out repetitions loses no member. -/
theorem mem_distinct_iff {α : Type} [BEq α] [LawfulBEq α] {x : α} {xs : List α} :
    x ∈ distinct xs ↔ x ∈ xs := by
  rw [distinct, mem_foldl_distinct]
  exact or_iff_right List.not_mem_nil

/-- Leaving out repetitions leaves none. -/
theorem nodup_distinct {α : Type} [BEq α] [LawfulBEq α] (xs : List α) : (distinct xs).Nodup := by
  -- For whatever has been seen before, as the loop carries it along.
  have hstep : ∀ seen : List α, seen.Nodup →
      (xs.foldl (fun seen x => if seen.contains x then seen else seen ++ [x]) seen).Nodup := by
    induction xs with
    | nil => exact fun _ hseen => hseen
    | cons x xs ih =>
      intro seen hseen
      rw [List.foldl_cons]
      by_cases hx : x ∈ seen
      · rw [if_pos (List.contains_iff_mem.mpr hx)]
        exact ih seen hseen
      · rw [if_neg (by simpa using hx)]
        refine ih _ (List.nodup_append.mpr ⟨hseen, List.nodup_singleton x, ?_⟩)
        rintro y hy z hz rfl
        exact hx (List.mem_singleton.mp hz ▸ hy)
  exact hstep [] List.nodup_nil

end Bindery.Text
