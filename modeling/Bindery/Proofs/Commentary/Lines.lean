import Bindery.Code.Line
import Bindery.Proofs.Text

/-!
# Code and comments

A line is a comment if the first characters of it that are not blank are two slashes. What is left
of a text without its comments are its `Text.codeLines`, and as every line of an emitted file ends
in a line feed, they can be read off line by line (`codeLines_render`).

A description is put in behind the mark of a comment, and its own line feeds are left as they are.
So the mark covers its first line, and the others are on their own: a description stays in its
comment (`Text.StaysInComment`) if each of them is a comment by itself.

`Annotates` says that lines are certain code with certain descriptions put in as comments, each at
some depth and in some place. It follows the way lines are put together, and it decides what the
comments do to the code: the code is the same exactly when all the descriptions stay in their
comments (`Annotates.code_eq_iff`).
-/

namespace Bindery

namespace Text

/-! ### Lines of a text -/

/-- **A line is a comment**: its first characters that are not blank are two slashes. -/
def isComment (line : List Char) : Bool :=
  (dropPrefixList? ['/', '/'] (line.dropWhile Char.isWhitespace)).isSome

/-- The lines of a text that are not comments. -/
def codeLines (cs : List Char) : List (List Char) :=
  (cutList '\n' cs).filter fun line => !isComment line

/-- The lines of a description that are not comments, where the first one stands behind a mark. -/
def spilled (d : String) : List (List Char) :=
  (cutList '\n' d.toList).tail.filter fun line => !isComment line

/-- **A description stays in its comment**: each of its lines but the first is a comment by
itself. -/
def StaysInComment (d : String) : Prop :=
  ∀ line ∈ (cutList '\n' d.toList).tail, isComment line = true

instance (d : String) : Decidable (StaysInComment d) :=
  inferInstanceAs (Decidable (∀ line ∈ (cutList '\n' d.toList).tail, isComment line = true))

theorem spilled_eq_nil_iff {d : String} : spilled d = [] ↔ StaysInComment d := by
  rw [spilled, List.filter_eq_nil_iff, StaysInComment]
  simp only [Bool.not_eq_true', Bool.not_eq_false]

theorem codeLines_append_newline (cs rest : List Char) :
    codeLines (cs ++ '\n' :: rest) = codeLines cs ++ codeLines rest := by
  rw [codeLines, cutList_eq_splitOn, List.splitOn_append_cons_self, List.filter_append,
    ← cutList_eq_splitOn, ← cutList_eq_splitOn]
  rfl

/-- Characters in front of a text belong to its first line. -/
theorem tail_cutList_append {sep : Char} {front : List Char} (h : sep ∉ front) (cs : List Char) :
    ∃ first, cutList sep (front ++ cs) = (front ++ first) :: (cutList sep cs).tail := by
  induction front with
  | nil =>
    obtain ⟨first, rest, hcut⟩ := List.exists_cons_of_ne_nil (List.splitOn_ne_nil sep cs)
    rw [← cutList_eq_splitOn] at hcut
    exact ⟨first, by rw [List.nil_append, hcut]; rfl⟩
  | cons c front ih =>
    obtain ⟨hc, hfront⟩ := List.ne_and_not_mem_of_not_mem_cons h
    obtain ⟨first, hcut⟩ := ih hfront
    refine ⟨first, ?_⟩
    rw [cutList] at hcut ⊢
    rw [List.cons_append, List.foldr_cons, if_neg hc.symm, hcut]
    rfl

end Text

/-! ### Lines of code -/

open Text

namespace Line

/-- What a line of code leaves of itself when comments are taken out. -/
def code (unit : String) (l : Line) : List (List Char) :=
  codeLines (if l.text = "" then "" else times l.depth unit ++ l.text).toList

theorem toList_render (unit : String) (l : Line) :
    (l.render unit).toList =
      (if l.text = "" then "" else times l.depth unit ++ l.text).toList ++ ['\n'] := by
  rw [render]
  split
  · rfl
  · rw [String.toList_append]
    rfl

end Line

/-- Without its comments, a file is put together from what each line leaves. -/
theorem codeLines_render (unit : String) (ls : List Line) :
    codeLines (Code.render unit ls).toList = ls.flatMap (Line.code unit) ++ [[]] := by
  induction ls with
  | nil => rfl
  | cons l ls ih =>
    have hrender : (Code.render unit (l :: ls)).toList =
        (l.render unit).toList ++ (Code.render unit ls).toList := by
      rw [Code.render, List.map_cons, String.join_cons, String.toList_append]
      rfl
    rw [hrender, Line.toList_render, List.append_assoc, List.singleton_append,
      codeLines_append_newline, ih, List.flatMap_cons, List.append_assoc]
    rfl

/-- Indentation is blank and stays on its line. -/
def IsIndentation (unit : String) : Prop := ∀ c ∈ unit.toList, c.isWhitespace = true ∧ c ≠ '\n'

/-- The marks that stand in front of descriptions. -/
def commentMarks : List String := ["// ", "/// "]

theorem isIndentation_fourBlanks : IsIndentation Code.fourBlanks := by
  intro c hc
  simp only [Code.fourBlanks, String.reduceToList, List.mem_cons, List.not_mem_nil, or_false,
    or_self] at hc
  subst hc
  decide

theorem isIndentation_tab : IsIndentation Code.tab := by
  intro c hc
  simp only [Code.tab, String.reduceToList, List.mem_cons, List.not_mem_nil, or_false] at hc
  subst hc
  decide

theorem mem_times {n : Nat} {unit : String} {c : Char} (h : c ∈ (times n unit).toList) :
    c ∈ unit.toList := by
  rw [times, String.toList_join, List.mem_flatMap] at h
  obtain ⟨s, hs, hc⟩ := h
  rw [List.eq_of_mem_replicate hs] at hc
  exact hc

/-- Behind its indentation, a line with a mark is a comment. -/
theorem isComment_of_mark {front : List Char} (hfront : ∀ c ∈ front, c.isWhitespace = true)
    {mark : String} (hmark : mark ∈ commentMarks) (cs : List Char) :
    isComment (front ++ mark.toList ++ cs) = true := by
  rw [isComment, List.append_assoc, List.dropWhile_append_of_pos hfront]
  rw [commentMarks, List.mem_pair] at hmark
  rcases hmark with rfl | rfl <;> rfl

/-- **A description behind the mark of a comment** leaves of itself what it spills. -/
theorem code_comment {unit : String} (hunit : IsIndentation unit) {mark : String}
    (hmark : mark ∈ commentMarks) (depth : Nat) (d : String) :
    Line.code unit ⟨depth, mark ++ d⟩ = spilled d := by
  -- Only a break could end the first line within what stands before the description.
  have hblank : ∀ c ∈ (times depth unit).toList, c.isWhitespace = true := by
    intro c hc
    exact (hunit c (mem_times hc)).1
  have hnewline : '\n' ∉ (times depth unit).toList ++ mark.toList := by
    rw [List.mem_append, not_or]
    refine ⟨fun hc => (hunit _ (mem_times hc)).2 rfl, ?_⟩
    have hmarks : ∀ mark ∈ commentMarks, '\n' ∉ mark.toList := by decide
    exact hmarks mark hmark
  have hempty : mark ++ d ≠ "" := by
    have hmarks : ∀ mark ∈ commentMarks, mark ≠ "" := by decide
    rw [Ne, String.append_eq_empty_iff]
    exact fun h => hmarks mark hmark h.1
  obtain ⟨first, hcut⟩ := tail_cutList_append hnewline d.toList
  -- The first line is a comment and is dropped; what is left is what the description spilled.
  rw [Line.code, if_neg hempty, String.toList_append, String.toList_append, ← List.append_assoc,
    codeLines, hcut, List.filter_cons_of_neg]
  · rfl
  · rw [isComment_of_mark hblank hmark]
    exact Bool.false_ne_true

/-! ### Code with descriptions -/

/-- **Lines are certain code with these descriptions put in as comments**, in this order. -/
inductive Annotates : List String → List Line → List Line → Prop
  | nil : Annotates [] [] []
  | code {ds : List String} {ls bare : List Line} (l : Line) (rest : Annotates ds ls bare) :
    Annotates ds (l :: ls) (l :: bare)
  | note {ds : List String} {ls bare : List Line} {mark : String} (marked : mark ∈ commentMarks)
    (depth : Nat) (d : String) (rest : Annotates ds ls bare) :
    Annotates (d :: ds) (⟨depth, mark ++ d⟩ :: ls) bare

namespace Annotates

variable {α : Type} {ds ds' : List String} {ls ls' bare bare' : List Line}

/-- Code without descriptions. -/
theorem refl (ls : List Line) : Annotates [] ls ls := by
  induction ls with
  | nil => exact .nil
  | cons l ls ih => exact .code l ih

theorem append (h : Annotates ds ls bare) (h' : Annotates ds' ls' bare') :
    Annotates (ds ++ ds') (ls ++ ls') (bare ++ bare') := by
  induction h with
  | nil => exact h'
  | code l _ ih => exact .code l ih
  | note marked depth d _ ih => exact .note marked depth d ih

/-- Code in front of lines with descriptions. -/
theorem append_left (front : List Line) (h : Annotates ds ls bare) :
    Annotates ds (front ++ ls) (front ++ bare) := (refl front).append h

/-- Code behind lines with descriptions. -/
theorem append_right (h : Annotates ds ls bare) (back : List Line) :
    Annotates ds (ls ++ back) (bare ++ back) := by
  have happend := h.append (refl back)
  rwa [List.append_nil] at happend

theorem indent (h : Annotates ds ls bare) : Annotates ds (Code.indent ls) (Code.indent bare) := by
  induction h with
  | nil => exact .nil
  | code l _ ih => exact .code _ ih
  | note marked depth d _ ih => exact .note marked (depth + 1) d ih

theorem block (header : String) (h : Annotates ds ls bare) :
    Annotates ds (Code.block header ls) (Code.block header bare) :=
  (h.indent.append_left [({ text := header ++ " \x7b" } : Line)]).append_right _

theorem flatMap {xs : List α} {descriptions : α → List String} {lines bare : α → List Line}
    (h : ∀ x ∈ xs, Annotates (descriptions x) (lines x) (bare x)) :
    Annotates (xs.flatMap descriptions) (xs.flatMap lines) (xs.flatMap bare) := by
  induction xs with
  | nil => exact .nil
  | cons x xs ih =>
    obtain ⟨hx, hxs⟩ := List.forall_mem_cons.mp h
    exact hx.append (ih hxs)

/-- A description, if there is one. -/
theorem ofDescription {mark : String} (marked : mark ∈ commentMarks) (d : Option String) :
    Annotates d.toList (Code.lines (d.toList.map (mark ++ ·))) [] := by
  cases d with
  | none => exact .nil
  | some d => exact .note marked 0 d .nil

section Spilling

variable {unit : String}

/-- Every line that is spilled is one line more. -/
theorem length_code (hunit : IsIndentation unit) (h : Annotates ds ls bare) :
    (ls.flatMap (Line.code unit)).length =
      (ds.flatMap spilled).length + (bare.flatMap (Line.code unit)).length := by
  induction h with
  | nil => rfl
  | code l _ ih =>
    rw [List.flatMap_cons, List.flatMap_cons, List.length_append, List.length_append, ih,
      Nat.add_left_comm]
  | note marked depth d _ ih =>
    rw [List.flatMap_cons, List.flatMap_cons, List.length_append, List.length_append, ih,
      code_comment hunit marked, Nat.add_assoc]

theorem code_eq (hunit : IsIndentation unit) (h : Annotates ds ls bare)
    (hds : ∀ d ∈ ds, StaysInComment d) :
    ls.flatMap (Line.code unit) = bare.flatMap (Line.code unit) := by
  induction h with
  | nil => rfl
  | code l _ ih => rw [List.flatMap_cons, List.flatMap_cons, ih hds]
  | note marked depth d _ ih =>
    obtain ⟨hd, hrest⟩ := List.forall_mem_cons.mp hds
    rw [List.flatMap_cons, code_comment hunit marked, spilled_eq_nil_iff.mpr hd, List.nil_append,
      ih hrest]

/-- **The code is the same exactly when all descriptions stay in their comments.** -/
theorem code_eq_iff (hunit : IsIndentation unit) (h : Annotates ds ls bare) :
    ls.flatMap (Line.code unit) = bare.flatMap (Line.code unit) ↔
      ∀ d ∈ ds, StaysInComment d := by
  refine ⟨?_, h.code_eq hunit⟩
  intro heq d hd
  -- nothing is spilled, because there is not a line more
  have hnone : (ds.flatMap spilled).length = 0 := by
    have hlength := h.length_code hunit
    rw [heq] at hlength
    omega
  exact spilled_eq_nil_iff.mp (List.flatMap_eq_nil_iff.mp (List.length_eq_zero_iff.mp hnone) d hd)

end Spilling

end Annotates

end Bindery
