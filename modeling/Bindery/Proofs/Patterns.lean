import Bindery.Proofs.Names.Description
import Bindery.Proofs.TypeRef
import Bindery.Starter

/-!
# Patterns and recognisers

What a name or a type looks like is said twice. The shape of a description says it by
patterns, and the rest of the library says it by functions that take a text apart:
`TypeRef.ofString?`, `isQualifiedName`, `isPascalIdentifier`, `isSnakeIdentifier` and
`Starter.isApiName`. This module shows that the two agree on every text.

A pattern is matched by derivatives, one character at a time, and that is no way to reason
about an alternative of a dozen patterns. So a pattern is first read as the set of its texts:

* `matchesList_iff` — the matcher accepts a text exactly when the pattern stands for it
  (`Pattern.StandsFor`), where a sequence stands for texts in two parts and a repetition for
  texts in any number of parts.

From there on every pattern is read from its parts. `standsFor_separated` is the one argument
with an induction in it: a pattern between separators stands for the texts all of whose pieces,
when they are cut at the separators, the pattern stands for. The patterns of types then stand
for exactly the texts of the well-formed forms:

* `standsFor_returnPattern_iff`, `standsFor_parameterPattern_iff` — one form for each
  alternative;
* `patterns_agree_with_readers` — the patterns that the shape asks for, key by key, against the
  functions that read what stands under these keys.
-/

namespace Bindery

namespace Pattern

/-! ### The texts of a pattern -/

/-- **The texts that a pattern stands for.** -/
def StandsFor : Pattern → List Char → Prop
  | never, _ => False
  | nothing, w => w = []
  | oneOf ranges, w => ∃ c, inClass ranges c = true ∧ w = [c]
  | seq a b, w => ∃ u v, w = u ++ v ∧ a.StandsFor u ∧ b.StandsFor v
  | alt a b, w => a.StandsFor w ∨ b.StandsFor w
  | many a, w => ∃ parts : List (List Char), w = parts.flatten ∧ ∀ part ∈ parts, a.StandsFor part

theorem standsFor_seq_iff {a b : Pattern} {w : List Char} :
    (seq a b).StandsFor w ↔ ∃ u v, w = u ++ v ∧ a.StandsFor u ∧ b.StandsFor v := Iff.rfl

/-- Simplifying a sequence keeps its texts. -/
theorem standsFor_andThen_iff {a b : Pattern} {w : List Char} :
    (a.andThen b).StandsFor w ↔ (seq a b).StandsFor w := by
  cases a with
  | never => exact ⟨False.elim, fun ⟨_, _, _, h, _⟩ => h⟩
  | nothing =>
    constructor
    · intro h
      exact ⟨[], w, rfl, rfl, h⟩
    · rintro ⟨u, v, rfl, rfl, h⟩
      exact h
  | oneOf _ | seq _ _ | alt _ _ | many _ => exact Iff.rfl

/-- Simplifying an alternative keeps its texts. -/
theorem standsFor_orElse_iff {a b : Pattern} {w : List Char} :
    (a.orElse b).StandsFor w ↔ a.StandsFor w ∨ b.StandsFor w := by
  unfold orElse
  split
  · exact (or_iff_right id).symm
  · exact (or_iff_left id).symm
  · split
    next h => rw [h, or_self]
    next => exact Iff.rfl

theorem matchesEmpty_iff (p : Pattern) : p.matchesEmpty = true ↔ p.StandsFor [] := by
  -- The recursion of the test is that of the meaning.
  induction p with
  | never => exact ⟨nofun, False.elim⟩
  | nothing => exact ⟨fun _ => rfl, fun _ => rfl⟩
  | oneOf ranges => exact ⟨nofun, fun ⟨_, _, h⟩ => nomatch h⟩
  | seq a b iha ihb =>
    rw [matchesEmpty, Bool.and_eq_true, iha, ihb, standsFor_seq_iff]
    constructor
    · rintro ⟨ha, hb⟩
      exact ⟨[], [], rfl, ha, hb⟩
    · rintro ⟨u, v, huv, hu, hv⟩
      obtain ⟨rfl, rfl⟩ := List.append_eq_nil_iff.mp huv.symm
      exact ⟨hu, hv⟩
  | alt a b iha ihb =>
    rw [matchesEmpty, Bool.or_eq_true, iha, ihb]
    exact Iff.rfl
  | many a _ => exact ⟨fun _ => ⟨[], rfl, nofun⟩, fun _ => rfl⟩

/-- A sequence that begins with a character has it in its first part, or the first part is
empty and the second one begins with it. -/
theorem standsFor_seq_cons_iff {a b : Pattern} {c : Char} {w : List Char} :
    (seq a b).StandsFor (c :: w) ↔
      (∃ u v, w = u ++ v ∧ a.StandsFor (c :: u) ∧ b.StandsFor v) ∨
        (a.StandsFor [] ∧ b.StandsFor (c :: w)) := by
  rw [standsFor_seq_iff]
  constructor
  -- The first character belongs to the first part, unless that part is empty.
  · rintro ⟨u, v, huv, hu, hv⟩
    cases u with
    | nil =>
      rw [List.nil_append] at huv
      exact .inr ⟨hu, huv ▸ hv⟩
    | cons d u =>
      rw [List.cons_append, List.cons.injEq] at huv
      obtain ⟨rfl, rfl⟩ := huv
      exact .inl ⟨u, v, rfl, hu, hv⟩
  · rintro (⟨u, v, rfl, hu, hv⟩ | ⟨ha, hb⟩)
    · exact ⟨c :: u, v, rfl, hu, hv⟩
    · exact ⟨[], c :: w, rfl, ha, hb⟩

/-- A repetition that begins with a character begins with a part that does. -/
theorem standsFor_many_cons_iff {a : Pattern} {c : Char} {w : List Char} :
    (many a).StandsFor (c :: w) ↔
      ∃ u v, w = u ++ v ∧ a.StandsFor (c :: u) ∧ (many a).StandsFor v := by
  constructor
  · rintro ⟨parts, hw, hparts⟩
    -- parts without characters go by until the first one that has some
    induction parts with
    | nil => cases hw
    | cons part rest ih =>
      obtain ⟨hpart, hrest⟩ := List.forall_mem_cons.mp hparts
      cases part with
      | nil => exact ih hw hrest
      | cons d u =>
        rw [List.flatten_cons, List.cons_append, List.cons.injEq] at hw
        obtain ⟨rfl, rfl⟩ := hw
        exact ⟨u, rest.flatten, rfl, hpart, rest, rfl, hrest⟩
  · rintro ⟨u, v, rfl, hu, parts, rfl, hparts⟩
    exact ⟨(c :: u) :: parts, rfl, List.forall_mem_cons.mpr ⟨hu, hparts⟩⟩

/-- **The derivative stands for what may follow a character.** -/
theorem standsFor_derivative_iff {p : Pattern} {c : Char} {w : List Char} :
    (p.derivative c).StandsFor w ↔ p.StandsFor (c :: w) := by
  induction p generalizing w with
  | never => exact Iff.rfl
  | nothing => exact ⟨False.elim, nofun⟩
  | oneOf ranges =>
    rw [derivative]
    by_cases hc : inClass ranges c = true
    · rw [if_pos hc]
      constructor
      · rintro rfl
        exact ⟨c, hc, rfl⟩
      · rintro ⟨d, -, hd⟩
        exact (List.cons.inj hd).2
    · rw [if_neg hc]
      constructor
      · exact False.elim
      · rintro ⟨d, hd, heq⟩
        obtain ⟨rfl, -⟩ := List.cons.inj heq
        exact hc hd
  | seq a b iha ihb =>
    -- the character belongs to the first part, or to the second where the first may be empty
    have hfirst : ((a.derivative c).andThen b).StandsFor w ↔
        ∃ u v, w = u ++ v ∧ a.StandsFor (c :: u) ∧ b.StandsFor v := by
      simp only [standsFor_andThen_iff, standsFor_seq_iff, iha]
    rw [derivative, standsFor_seq_cons_iff, ← matchesEmpty_iff]
    by_cases hempty : a.matchesEmpty = true
    · rw [if_pos hempty, standsFor_orElse_iff, hfirst, ihb]
      exact or_congr_right (and_iff_right hempty).symm
    · rw [if_neg hempty, hfirst]
      exact (or_iff_left fun h => hempty h.1).symm
  | alt a b iha ihb =>
    rw [derivative, standsFor_orElse_iff, iha, ihb]
    exact Iff.rfl
  | many a iha =>
    rw [derivative, standsFor_andThen_iff, standsFor_many_cons_iff, standsFor_seq_iff]
    simp only [iha]

/-- **The matcher accepts the texts that the pattern stands for.** -/
theorem matchesList_iff {p : Pattern} {cs : List Char} :
    p.matchesList cs = true ↔ p.StandsFor cs := by
  rw [matchesList]
  induction cs generalizing p with
  | nil => exact matchesEmpty_iff p
  | cons c cs ih => rw [List.foldl_cons, ih, standsFor_derivative_iff]

/-! ### The texts of built patterns -/

/-- A character between two equal bounds is that character. -/
theorem standsFor_char_iff {c : Char} {w : List Char} : (char c).StandsFor w ↔ w = [c] := by
  have hclass : ∀ d, inClass [(c, c)] d = true ↔ d = c := by
    intro d
    simp only [inClass, List.any_cons, List.any_nil, Bool.or_false, Bool.and_eq_true,
      decide_eq_true_eq]
    rw [and_comm]
    exact antisymm_iff
  change (∃ d, inClass [(c, c)] d = true ∧ w = [d]) ↔ w = [c]
  simp only [hclass, exists_eq_left]

theorem standsFor_literal_iff {s : String} {w : List Char} :
    (literal s).StandsFor w ↔ w = s.toList := by
  rw [literal]
  induction s.toList generalizing w with
  | nil => exact Iff.rfl
  | cons c cs ih =>
    rw [List.foldr_cons, standsFor_andThen_iff, standsFor_seq_iff]
    constructor
    · rintro ⟨u, v, rfl, hu, hv⟩
      rw [standsFor_char_iff.mp hu, ih.mp hv]
      rfl
    · rintro rfl
      exact ⟨[c], cs, rfl, standsFor_char_iff.mpr rfl, ih.mpr rfl⟩

theorem standsFor_choice_iff {ps : List Pattern} {w : List Char} :
    (choice ps).StandsFor w ↔ ∃ p ∈ ps, p.StandsFor w := by
  rw [choice]
  induction ps with
  | nil => exact ⟨False.elim, nofun⟩
  | cons p ps ih => rw [List.foldr_cons, standsFor_orElse_iff, ih, List.exists_mem_cons_iff]

/-- Pieces that are joined by a separator: the first one, and each of the others with the
separator in front. -/
theorem intercalate_cons (sep : Char) (piece : List Char) (rest : List (List Char)) :
    [sep].intercalate (piece :: rest) = piece ++ (rest.map (sep :: ·)).flatten := by
  induction rest generalizing piece with
  | nil => simp [List.intercalate]
  | cons next rest ih =>
    have hstep : [sep].intercalate (piece :: next :: rest) =
        piece ++ sep :: [sep].intercalate (next :: rest) := by
      simp [List.intercalate]
    rw [hstep, ih, List.map_cons, List.flatten_cons, List.cons_append]

/-- A text behind a separator. -/
theorem standsFor_char_seq_iff {sep : Char} {p : Pattern} {w : List Char} :
    (seq (char sep) p).StandsFor w ↔ ∃ piece, w = sep :: piece ∧ p.StandsFor piece := by
  rw [standsFor_seq_iff]
  constructor
  · rintro ⟨u, v, rfl, hu, hv⟩
    obtain rfl := standsFor_char_iff.mp hu
    exact ⟨v, rfl, hv⟩
  · rintro ⟨piece, rfl, hpiece⟩
    exact ⟨[sep], piece, rfl, standsFor_char_iff.mpr rfl, hpiece⟩

/-- **Texts of one pattern between separators.** If the separator is in none of its texts, then
these are the texts all of whose pieces the pattern stands for. -/
theorem standsFor_separated {p : Pattern} {sep : Char}
    (hsep : ∀ w, p.StandsFor w → sep ∉ w) {w : List Char} :
    (seq p (many (seq (char sep) p))).StandsFor w ↔
      ∀ piece ∈ Text.cutList sep w, p.StandsFor piece := by
  rw [standsFor_seq_iff, Text.cutList_eq_splitOn]
  constructor
  · rintro ⟨first, _, rfl, hfirst, parts, rfl, hparts⟩
    have htails : ∀ part ∈ parts, part = sep :: part.tail ∧ p.StandsFor part.tail := by
      intro part hpart
      obtain ⟨piece, rfl, hpiece⟩ := standsFor_char_seq_iff.mp (hparts part hpart)
      exact ⟨rfl, hpiece⟩
    -- the parts are the further pieces with the separator in front, so cutting gives them back
    have hjoined : (parts.map List.tail).map (sep :: ·) = parts := by
      rw [List.map_map]
      refine (List.map_congr_left fun part hpart => ?_).trans (List.map_id parts)
      exact (htails part hpart).1.symm
    have hpieces : ∀ piece ∈ first :: parts.map List.tail, p.StandsFor piece := by
      refine List.forall_mem_cons.mpr ⟨hfirst, ?_⟩
      rw [List.forall_mem_map]
      exact fun part hpart => (htails part hpart).2
    rw [← hjoined, ← intercalate_cons,
      List.splitOn_intercalate sep (fun piece hpiece => hsep piece (hpieces piece hpiece)) nofun]
    exact hpieces
  · intro hpieces
    obtain ⟨first, rest, hcut⟩ := List.exists_cons_of_ne_nil (List.splitOn_ne_nil sep w)
    have hw : w = first ++ (rest.map (sep :: ·)).flatten := by
      rw [← intercalate_cons, ← hcut, List.intercalate_splitOn]
    rw [hcut] at hpieces
    obtain ⟨hfirst, hrest⟩ := List.forall_mem_cons.mp hpieces
    refine ⟨first, _, hw, hfirst, _, rfl, ?_⟩
    rw [List.forall_mem_map]
    exact fun piece hpiece => standsFor_char_seq_iff.mpr ⟨piece, rfl, hrest piece hpiece⟩

end Pattern

/-! ### The patterns of the shape -/

namespace Shape

open Pattern

theorem inClass_pascalTail (c : Char) :
    inClass [lowerRange, upperRange, digitRange] c = c.isAlphanum := by
  have hlower : (decide ('a' ≤ c) && decide (c ≤ 'z')) = c.isLower := rfl
  have hupper : (decide ('A' ≤ c) && decide (c ≤ 'Z')) = c.isUpper := by
    simp [Char.isUpper, Char.le_def]
  have hdigit : (decide ('0' ≤ c) && decide (c ≤ '9')) = c.isDigit := rfl
  simp only [inClass, lowerRange, upperRange, digitRange, List.any_cons, List.any_nil,
    Bool.or_false, hlower, hupper, hdigit, Char.isAlphanum, Char.isAlpha]
  rw [← Bool.or_assoc, Bool.or_comm c.isLower c.isUpper]

/-- The pattern of handles stands for the names in Pascal case. -/
theorem standsFor_pascalPattern_iff {cs : List Char} :
    pascalPattern.StandsFor cs ↔ isPascalList cs = true := by
  rw [← matchesList_iff]
  cases cs with
  | nil => exact Iff.rfl
  | cons c cs =>
    have hupper : inClass [upperRange] c = c.isUpper := by
      simp [inClass, upperRange, Char.isUpper, Char.le_def]
    have htail : inClass [lowerRange, upperRange, digitRange] = Char.isAlphanum :=
      funext inClass_pascalTail
    rw [pascalPattern, matchesList_oneOf_many, hupper, htail]
    exact Iff.rfl

/-- The pattern of schema types stands for Pascal-case names between dots. -/
theorem standsFor_qualifiedPattern_iff {s : String} :
    qualifiedPattern.StandsFor s.toList ↔ isQualifiedName s = true := by
  have hdot : ∀ cs, pascalPattern.StandsFor cs → '.' ∉ cs := by
    intro cs hcs hmem
    rw [standsFor_pascalPattern_iff] at hcs
    cases cs with
    | nil => cases hmem
    | cons c cs =>
      obtain ⟨hc, hrest⟩ := Bool.and_eq_true_iff.mp hcs
      rcases List.mem_cons.mp hmem with rfl | hmem
      · exact absurd hc (by decide)
      · exact absurd (List.all_eq_true.mp hrest _ hmem) (by decide)
  rw [qualifiedPattern, standsFor_separated hdot, isQualifiedName, List.all_eq_true]
  simp only [standsFor_pascalPattern_iff]

/-- The numeric scalars are the primitives that a buffer may hold. -/
theorem standsFor_numeric_iff {w : List Char} :
    (∃ p ∈ numericNames.map literal, p.StandsFor w) ↔
      ∃ q : Primitive, q ≠ .bool ∧ w = q.name.toList := by
  have hnames : numericNames = (Primitive.all.filter (· ≠ .bool)).map Primitive.name := rfl
  have hmem : ∀ q, q ∈ Primitive.all.filter (· ≠ .bool) ↔ q ≠ .bool := by
    intro q
    cases q <;> decide
  rw [hnames]
  -- The table lists the names of the numeric scalars, so both ways go through the scalar.
  constructor
  · rintro ⟨_, hp, hw⟩
    obtain ⟨_, hname, rfl⟩ := List.mem_map.mp hp
    obtain ⟨q, hq, rfl⟩ := List.mem_map.mp hname
    exact ⟨q, (hmem q).mp hq, standsFor_literal_iff.mp hw⟩
  · rintro ⟨q, hq, hw⟩
    refine ⟨literal q.name, List.mem_map_of_mem (List.mem_map_of_mem ((hmem q).mpr hq)), ?_⟩
    exact standsFor_literal_iff.mpr hw

/-- A name of a handle behind its mark. -/
theorem standsFor_handle_iff {s : String} :
    (seq (literal "handle:") pascalPattern).StandsFor s.toList ↔
      ∃ name, isPascalIdentifier name = true ∧ s = "handle:" ++ name := by
  rw [standsFor_seq_iff]
  constructor
  · rintro ⟨u, v, hs, hu, hv⟩
    refine ⟨String.ofList v, ?_, ?_⟩
    · rw [isPascalIdentifier, String.toList_ofList]
      exact standsFor_pascalPattern_iff.mp hv
    · rw [← String.toList_inj, hs, standsFor_literal_iff.mp hu, String.toList_append]
      exact congrArg _ String.toList_ofList.symm
  · rintro ⟨name, hname, rfl⟩
    exact ⟨_, _, String.toList_append, standsFor_literal_iff.mpr rfl,
      standsFor_pascalPattern_iff.mpr hname⟩

/-- A numeric scalar between the brackets of a buffer. -/
theorem standsFor_buffer_iff {s : String} :
    (seq (literal "buffer<") (seq (choice (numericNames.map literal)) (literal ">"))).StandsFor
        s.toList ↔
      ∃ q : Primitive, q ≠ .bool ∧ s = "buffer<" ++ q.name ++ ">" := by
  simp only [standsFor_seq_iff, standsFor_literal_iff, standsFor_choice_iff,
    standsFor_numeric_iff]
  constructor
  · rintro ⟨_, _, hs, rfl, _, _, rfl, ⟨q, hq, rfl⟩, rfl⟩
    refine ⟨q, hq, ?_⟩
    rw [← String.toList_inj, hs, String.toList_append, String.toList_append, List.append_assoc]
  · rintro ⟨q, hq, rfl⟩
    refine ⟨_, _, ?_, rfl, _, _, rfl, ⟨q, hq, rfl⟩, rfl⟩
    rw [String.toList_append, String.toList_append, List.append_assoc]

/-- The names of all primitives: the numeric scalars and the truth values. -/
theorem numeric_or_bool_iff {w : List Char} :
    (∃ q : Primitive, q ≠ .bool ∧ w = q.name.toList) ∨ w = "bool".toList ↔
      ∃ q : Primitive, w = q.name.toList := by
  constructor
  · rintro (⟨q, -, hw⟩ | hw)
    · exact ⟨q, hw⟩
    · exact ⟨.bool, hw⟩
  · rintro ⟨q, hw⟩
    by_cases hq : q = .bool
    · subst hq
      exact .inr hw
    · exact .inl ⟨q, hq, hw⟩

/-- **The texts of types that can be returned.** -/
theorem standsFor_returnPattern_iff {s : String} :
    returnPattern.StandsFor s.toList ↔
      (∃ q : Primitive, s = q.name) ∨
        (∃ name, isPascalIdentifier name = true ∧ s = "handle:" ++ name) ∨
        isQualifiedName s = true := by
  rw [returnPattern, standsFor_choice_iff]
  simp only [List.mem_append, or_and_right, exists_or, standsFor_numeric_iff, List.mem_cons,
    List.not_mem_nil, or_false, exists_eq_left, standsFor_literal_iff, standsFor_handle_iff,
    standsFor_qualifiedPattern_iff]
  rw [← or_assoc, numeric_or_bool_iff]
  simp only [String.toList_inj]

/-- **The texts of types that a parameter can have.** -/
theorem standsFor_parameterPattern_iff {s : String} :
    parameterPattern.StandsFor s.toList ↔
      (∃ q : Primitive, s = q.name) ∨ s = "string" ∨
        (∃ q : Primitive, q ≠ .bool ∧ s = "buffer<" ++ q.name ++ ">") ∨
        (∃ name, isPascalIdentifier name = true ∧ s = "handle:" ++ name) ∨
        isQualifiedName s = true := by
  rw [parameterPattern, standsFor_choice_iff]
  simp only [List.mem_append, or_and_right, exists_or, standsFor_numeric_iff, List.mem_cons,
    List.not_mem_nil, or_false, exists_eq_left, standsFor_literal_iff, standsFor_handle_iff,
    standsFor_buffer_iff, standsFor_qualifiedPattern_iff]
  rw [← or_assoc, numeric_or_bool_iff]
  simp only [String.toList_inj]

/-- Whether an object of this shape may have a text under a key. -/
def allows (shape : Shape) (key s : String) : Bool :=
  match shape with
  | object properties _ =>
    (lookupEntry key properties).any fun property => (property.check (.str s)).isOk
  | text _ | word _ | list _ _ _ => false

/-- What a pattern says about a text is all that the shape says about it. -/
theorem isOk_check_matching {display : String} {p : Pattern} {s : String} :
    ((matching display p).check (.str s)).isOk = true ↔ p.StandsFor s.toList := by
  rw [isOk_check, ← matchesList_iff]
  exact Iff.rfl

theorem allows_iff {properties : List (String × Shape)} {required : List String}
    {key display : String} {p : Pattern}
    (h : lookupEntry key properties = some (matching display p)) {s : String} :
    (object properties required).allows key s = true ↔ p.StandsFor s.toList := by
  rw [allows, h, Option.any_some, isOk_check_matching]

end Shape

/-! ### Forms and texts -/

namespace TypeRef

theorem exists_primitive_iff {s : String} :
    (∃ p, ofString? s = some (.primitive p)) ↔ ∃ p : Primitive, s = p.name := by
  simp only [ofString?_eq_some_iff, text, WellFormed, and_true]

theorem exists_handle_iff {s : String} :
    (∃ name, ofString? s = some (.handle name)) ↔
      ∃ name, isPascalIdentifier name = true ∧ s = "handle:" ++ name := by
  simp only [ofString?_eq_some_iff, text, WellFormed, and_comm]

theorem exists_qualified_iff {s : String} :
    (∃ name, ofString? s = some (.qualified name)) ↔ isQualifiedName s = true := by
  simp only [ofString?_eq_some_iff, text, WellFormed, exists_eq_left']

theorem exists_buffer_iff {s : String} :
    (∃ q, ofString? s = some (.buffer q)) ↔
      ∃ q : Primitive, q ≠ .bool ∧ s = "buffer<" ++ q.name ++ ">" := by
  simp only [ofString?_eq_some_iff, text, WellFormed, and_comm]

theorem eq_string_iff {s : String} : ofString? s = some .string ↔ s = "string" := by
  simp only [ofString?_eq_some_iff, text, WellFormed, and_true]

/-- **A text that is read is read as one of the five forms.** -/
theorem exists_ofString?_iff {s : String} :
    (∃ t, ofString? s = some t) ↔
      (∃ q : Primitive, s = q.name) ∨ s = "string" ∨
        (∃ q : Primitive, q ≠ .bool ∧ s = "buffer<" ++ q.name ++ ">") ∨
        (∃ name, isPascalIdentifier name = true ∧ s = "handle:" ++ name) ∨
        isQualifiedName s = true := by
  rw [← exists_primitive_iff, ← eq_string_iff, ← exists_buffer_iff, ← exists_handle_iff,
    ← exists_qualified_iff]
  constructor
  -- One alternative for each form that the reader returns.
  · rintro ⟨t, ht⟩
    cases t with
    | string => exact .inr (.inl ht)
    | buffer q => exact .inr (.inr (.inl ⟨q, ht⟩))
    | handle name => exact .inr (.inr (.inr (.inl ⟨name, ht⟩)))
    | primitive p => exact .inl ⟨p, ht⟩
    | qualified name => exact .inr (.inr (.inr (.inr ⟨name, ht⟩)))
  · rintro (⟨p, h⟩ | h | ⟨q, h⟩ | ⟨name, h⟩ | ⟨name, h⟩)
    all_goals exact ⟨_, h⟩

end TypeRef

/-- **The shape of a description and the readers of names and types agree on every text.** -/
theorem patterns_agree_with_readers (s : String) :
    (Shape.parameter.allows "type" s = true ↔ ∃ t, TypeRef.ofString? s = some t) ∧
    (Shape.returns.allows "type" s = true ↔
      (∃ p, TypeRef.ofString? s = some (.primitive p)) ∨
        (∃ name, TypeRef.ofString? s = some (.handle name)) ∨
        ∃ name, TypeRef.ofString? s = some (.qualified name)) ∧
    (Shape.method.allows "error" s = true ↔ isQualifiedName s = true) ∧
    (Shape.handle.allows "name" s = true ↔ isPascalIdentifier s = true) ∧
    ((Shape.snakeName.check (.str s)).isOk = true ↔ isSnakeIdentifier s = true) ∧
    (isSnakeIdentifier s = true ↔ Starter.isApiName s = true) := by
  refine ⟨?_, ?_, ?_, ?_, ?_, ?_⟩
  · rw [Shape.parameter, Shape.allows_iff rfl, Shape.standsFor_parameterPattern_iff,
      TypeRef.exists_ofString?_iff]
  · rw [Shape.returns, Shape.allows_iff rfl, Shape.standsFor_returnPattern_iff,
      TypeRef.exists_primitive_iff, TypeRef.exists_handle_iff, TypeRef.exists_qualified_iff]
  · rw [Shape.method, Shape.allows_iff rfl, Shape.standsFor_qualifiedPattern_iff]
  · rw [Shape.handle, Shape.allows_iff rfl, Shape.standsFor_pascalPattern_iff,
      isPascalIdentifier]
  · rw [Shape.snakeName, Shape.isOk_check_matching, ← Pattern.matchesList_iff,
      Pattern.matchesList_snakePattern]
  · -- the two recognisers of names in snake case are the same walk over the characters
    exact Iff.rfl

end Bindery
