import Bindery.Proofs.Names.Bindings
import Bindery.Yaml.Scalar

/-!
# Escapes in native symbols

A native symbol is put together from segments with underscores in between, so an underscore inside
a segment is escaped, and so is every character that no symbol may hold. All escapes begin with an
underscore, and an escape may be followed by digits of the text, so where it ends has to be read off
the escape itself: the character behind the underscore tells how many belong to it. For an escape by
number these are four digits, which is enough for the characters of the Basic Multilingual Plane
and not for others.

* `readEscape?_append` — the first escape of a text is read off it, whatever follows;
* `unescape?_jniEscape` — hence a whole text is read back;
* `jniEscape_reversible` — escaping keeps texts of the plane apart, in letters, digits and
  underscores, and so do the symbols of one class.
-/

namespace Bindery

open Yaml (hexDigit? hexValue? charOf?)

/-! ### Numbers in hexadecimal digits -/

theorem hexDigit?_digitChar : ∀ d < 16, hexDigit? d.digitChar = some d := by decide

theorem isAlphanum_digitChar : ∀ d < 16, d.digitChar.isAlphanum = true := by decide

/-- The number is read back from its digits. -/
theorem hexValue?_toDigits (n : Nat) : hexValue? (Nat.toDigits 16 n) = some n := by
  induction n using Nat.strong_induction_on with
  | _ n ih =>
    by_cases hsmall : n < 16
    · rw [Nat.toDigits_of_lt_base hsmall, hexValue?, List.foldlM_cons, hexDigit?_digitChar n hsmall]
      simp
    · -- the last digit is put behind those of the number without it
      have hread := ih (n / 16) (by omega)
      rw [hexValue?] at hread
      rw [Nat.toDigits_of_base_le (by decide) (Nat.not_lt.mp hsmall), hexValue?,
        List.foldlM_append, hread]
      change ((hexDigit? (n % 16).digitChar).map (16 * (n / 16) + ·)).bind some = some n
      rw [hexDigit?_digitChar _ (Nat.mod_lt n (by decide)), Option.map_some, Option.bind_some,
        Nat.div_add_mod]

theorem isAlphanum_of_mem_toDigits {n : Nat} {c : Char} (h : c ∈ Nat.toDigits 16 n) :
    c.isAlphanum = true := by
  induction n using Nat.strong_induction_on with
  | _ n ih =>
    by_cases hsmall : n < 16
    · rw [Nat.toDigits_of_lt_base hsmall, List.mem_singleton] at h
      rw [h]
      exact isAlphanum_digitChar n hsmall
    · rw [Nat.toDigits_of_base_le (by decide) (Nat.not_lt.mp hsmall), List.mem_append,
        List.mem_singleton] at h
      rcases h with h | rfl
      · exact ih (n / 16) (by omega) h
      · exact isAlphanum_digitChar _ (Nat.mod_lt n (by decide))

theorem toList_hex (width n : Nat) :
    (Text.hex width n).toList =
      List.replicate (width - (Nat.toDigits 16 n).length) '0' ++ Nat.toDigits 16 n :=
  String.toList_ofList

/-- Zeros in front do not matter. -/
theorem hexValue?_hex (width n : Nat) : hexValue? (Text.hex width n).toList = some n := by
  have hzeros : ∀ k, hexValue? (List.replicate k '0' ++ Nat.toDigits 16 n) = some n := by
    intro k
    induction k with
    | zero => exact hexValue?_toDigits n
    | succ k ih =>
      rw [List.replicate_succ, List.cons_append, hexValue?, List.foldlM_cons]
      exact ih
  rw [toList_hex, hzeros]

theorem length_hex {width n : Nat} (hwidth : 0 < width) (h : n < 16 ^ width) :
    (Text.hex width n).toList.length = width := by
  have hdigits := (Nat.length_toDigits_le_iff (by decide) hwidth).mpr h
  rw [toList_hex, List.length_append, List.length_replicate]
  omega

theorem isAlphanum_of_mem_hex {width n : Nat} {c : Char} (h : c ∈ (Text.hex width n).toList) :
    c.isAlphanum = true := by
  rw [toList_hex, List.mem_append] at h
  rcases h with h | h
  · rw [List.eq_of_mem_replicate h]
    decide
  · exact isAlphanum_of_mem_toDigits h

theorem charOf?_toNat (c : Char) : charOf? c.toNat = some c := by
  have hvalid : c.toNat.isValidChar := c.valid
  rw [charOf?, if_pos hvalid, Char.ofNat_toNat]

namespace Naming

/-! ### Reading escapes -/

/-- The character that a text in a native symbol begins with, and what is behind it. -/
def readEscape? : List Char → Option (Char × List Char)
  | [] => none
  | c :: rest =>
    if c ≠ '_' then some (c, rest)
    else match rest with
      | '0' :: digits => (hexValue? (digits.take 4) >>= charOf?).map (·, digits.drop 4)
      | '1' :: rest => some ('_', rest)
      | '2' :: rest => some (';', rest)
      | '3' :: rest => some ('[', rest)
      | _ => none

theorem length_of_readEscape? {cs rest : List Char} {c : Char}
    (h : readEscape? cs = some (c, rest)) : rest.length < cs.length := by
  unfold readEscape? at h
  -- An escape takes its mark and its digits, and a plain character is taken alone.
  split at h
  · cases h
  · split at h
    · cases h
      exact Nat.lt_succ_self _
    · split at h
      · obtain ⟨d, -, hd⟩ := Option.map_eq_some_iff.mp h
        cases hd
        simp only [List.length_cons, List.length_drop]
        omega
      · cases h
        simp only [List.length_cons]
        omega
      · cases h
        simp only [List.length_cons]
        omega
      · cases h
        simp only [List.length_cons]
        omega
      · cases h

/-- The text that a segment of a native symbol stands for. -/
def unescape? (cs : List Char) : Option (List Char) :=
  match _h : readEscape? cs with
  | some (c, rest) => (unescape? rest).map (c :: ·)
  | none => if cs.isEmpty then some [] else none
termination_by cs.length
decreasing_by exact length_of_readEscape? _h

theorem unescape?_of_read {cs rest : List Char} {c : Char} (h : readEscape? cs = some (c, rest)) :
    unescape? cs = (unescape? rest).map (c :: ·) := by
  rw [unescape?]
  split
  · next c' rest' h' =>
    rw [h] at h'
    cases h'
    rfl
  · next h' =>
    rw [h] at h'
    cases h'

/-! ### What escaping writes -/

/-- **A text of the Basic Multilingual Plane**: its characters have numbers of four digits. -/
def IsBasic (s : String) : Prop := ∀ c ∈ s.toList, c.toNat < 0x10000

/-- The characters that have escapes of two characters, and what stands behind the underscore. -/
def shortEscapes : List (Char × Char) := [('_', '1'), (';', '2'), ('[', '3')]

theorem isAlphanum_of_mem_shortEscapes : ∀ e ∈ shortEscapes, e.2.isAlphanum = true := by decide

/-- **What becomes of one character**: a few have short escapes, letters and digits stay, and the
others are written by number. -/
theorem jniEscapeChar_cases (c : Char) :
    (∃ mark, (c, mark) ∈ shortEscapes ∧ (jniEscapeChar c).toList = ['_', mark]) ∨
      c.isAlphanum = true ∧ (jniEscapeChar c).toList = [c] ∨
        (jniEscapeChar c).toList = '_' :: '0' :: (Text.hex 4 c.toNat).toList := by
  unfold jniEscapeChar
  -- the three characters with a short escape
  split
  · next hc =>
    subst hc
    exact .inl ⟨'1', by decide, rfl⟩
  split
  · next hc =>
    subst hc
    exact .inl ⟨'2', by decide, rfl⟩
  split
  · next hc =>
    subst hc
    exact .inl ⟨'3', by decide, rfl⟩
  split
  · next halpha => exact .inr (.inl ⟨halpha, String.toList_singleton c⟩)
  · refine .inr (.inr ?_)
    rw [String.toList_append]
    rfl

/-- **The first escape of a text is read off it**, whatever follows. -/
theorem readEscape?_append {c : Char} (h : c.toNat < 0x10000) (rest : List Char) :
    readEscape? ((jniEscapeChar c).toList ++ rest) = some (c, rest) := by
  rcases jniEscapeChar_cases c with ⟨mark, hmark, hescape⟩ | ⟨halpha, hself⟩ | hnumber
  · rw [hescape]
    simp only [shortEscapes, List.mem_cons, Prod.mk.injEq, List.not_mem_nil, or_false] at hmark
    rcases hmark with ⟨rfl, rfl⟩ | ⟨rfl, rfl⟩ | ⟨rfl, rfl⟩
    all_goals rfl
  · have hc : c ≠ '_' := by
      rintro rfl
      exact absurd halpha (by decide)
    rw [hself, List.singleton_append]
    exact if_pos hc
  · -- a number of the plane has four digits, and what follows is behind them
    have hlength : (Text.hex 4 c.toNat).toList.length = 4 := length_hex (by decide) h
    rw [hnumber, List.cons_append, List.cons_append]
    change (hexValue? (((Text.hex 4 c.toNat).toList ++ rest).take 4) >>= charOf?).map
      (·, ((Text.hex 4 c.toNat).toList ++ rest).drop 4) = some (c, rest)
    rw [List.take_left' hlength, List.drop_left' hlength, hexValue?_hex, Option.bind_eq_bind,
      Option.bind_some, charOf?_toNat, Option.map_some]

/-- **A segment of a native symbol is read back.** -/
theorem unescape?_jniEscape {s : String} (h : IsBasic s) :
    unescape? (jniEscape s).toList = some s.toList := by
  -- One escape after another, with the rest as what stands behind.
  have hchars : ∀ cs : List Char, (∀ c ∈ cs, c.toNat < 0x10000) →
      unescape? (cs.flatMap fun c => (jniEscapeChar c).toList) = some cs := by
    intro cs hcs
    induction cs with
    | nil =>
      rw [List.flatMap_nil, unescape?]
      rfl
    | cons c cs ih =>
      rw [List.forall_mem_cons] at hcs
      rw [List.flatMap_cons, unescape?_of_read (readEscape?_append hcs.1 _), ih hcs.2,
        Option.map_some]
  rw [jniEscape, Text.substitute, String.toList_ofList, hchars s.toList h]

/-- **Escaping keeps texts of the plane apart.** -/
theorem jniEscape_inj {s t : String} (hs : IsBasic s) (ht : IsBasic t) :
    jniEscape s = jniEscape t ↔ s = t := by
  constructor
  · intro halike
    have hread := unescape?_jniEscape hs
    rw [halike, unescape?_jniEscape ht, Option.some.injEq] at hread
    exact (String.toList_inj.mp hread).symm
  · intro halike
    rw [halike]

/-- Beyond the plane a number has five digits, and the last one may as well belong to the text. -/
example : jniEscape (String.ofList [Char.ofNat 0x10000]) =
    jniEscape (String.ofList [Char.ofNat 0x1000, '0']) := by
  cbv

/-- **An escaped text has letters, digits and underscores only**, whatever the text is. -/
theorem isAlphanum_of_mem_jniEscape {s : String} {c : Char} (h : c ∈ (jniEscape s).toList) :
    c.isAlphanum = true ∨ c = '_' := by
  rw [jniEscape, Text.substitute, String.toList_ofList, List.mem_flatMap] at h
  obtain ⟨d, -, h⟩ := h
  -- By the way in which the character is written: by a mark, as itself, or as a number.
  rcases jniEscapeChar_cases d with ⟨mark, hmark, hescape⟩ | ⟨halpha, hself⟩ | hnumber
  · rw [hescape] at h
    rcases List.mem_pair.mp h with rfl | rfl
    · exact .inr rfl
    · exact .inl (isAlphanum_of_mem_shortEscapes _ hmark)
  · rw [hself, List.mem_singleton] at h
    rw [h]
    exact .inl halpha
  · rw [hnumber, List.mem_cons, List.mem_cons] at h
    rcases h with rfl | rfl | h
    · exact .inr rfl
    · exact .inl (by decide)
    · exact .inl (isAlphanum_of_mem_hex h)

/-- **Escapes in native symbols are reversible.** An escaped segment has letters, digits and
underscores only; a text of the Basic Multilingual Plane is read back from its escape, so two of
them have the same escape only if they are the same; and in one package and one class two methods
named by such texts have the same symbol only if they have the same name. -/
theorem jniEscape_reversible :
    (∀ s, ∀ c ∈ (jniEscape s).toList, c.isAlphanum = true ∨ c = '_') ∧
      (∀ s, IsBasic s → unescape? (jniEscape s).toList = some s.toList) ∧
      (∀ s t, IsBasic s → IsBasic t → (jniEscape s = jniEscape t ↔ s = t)) ∧
      ∀ package cls s t, IsBasic s → IsBasic t →
        (jniSymbol package cls s = jniSymbol package cls t ↔ s = t) := by
  refine ⟨fun s c hc => isAlphanum_of_mem_jniEscape hc, fun s hs => unescape?_jniEscape hs,
    fun s t hs ht => jniEscape_inj hs ht, fun package cls s t hs ht => ?_⟩
  -- package and class are in front of the method, and the same for both
  rw [jniSymbol_eq_append package cls s, jniSymbol_eq_append package cls t, String.append_right_inj,
    jniEscape_inj hs ht]

/-- A method with an underscore, with what an underscore is escaped to, and with an escape by
number that is followed by a digit. -/
theorem jniEscape_reversible_draw :
    IsBasic "a_1" ∧ jniEscape "a_1" = "a_11" ∧ unescape? "a_11".toList = some "a_1".toList ∧
      IsBasic "é1" ∧ jniEscape "é1" = "_000e91" ∧ unescape? "_000e91".toList = some "é1".toList ∧
      jniSymbol "demo" "Demo" "a_1" ≠ jniSymbol "demo" "Demo" "é1" := by
  obtain ⟨-, hread, -, hsymbol⟩ := jniEscape_reversible
  have hword : IsBasic "a_1" := by simp [IsBasic]
  have haccent : IsBasic "é1" := by simp [IsBasic]
  have hword' : jniEscape "a_1" = "a_11" := by decide
  have haccent' : jniEscape "é1" = "_000e91" := by cbv
  have hback := hread _ hword
  rw [hword'] at hback
  have hback' := hread _ haccent
  rw [haccent'] at hback'
  refine ⟨hword, hword', hback, haccent, haccent', hback', fun halike => ?_⟩
  exact absurd ((hsymbol _ _ _ _ hword haccent).mp halike) (by decide)

end Naming

end Bindery
