import Bindery.Code.Line
import Bindery.Proofs.Text

/-!
# What generated code declares

What a file declares can be read off its lines. A declaration stands at the outermost level and
begins with a mark, such as `fun `, and whatever is deeper behind it lies inside of it. So the
functions of a class are the declarations inside of the declaration of the class (`members`),
and the name of a function is the last word in front of its first parenthesis (`nameIn`).

The reading follows the way in which lines are put together:

* `declarations_append` — code that starts at the outermost level again is read on its own
  (`Outer`), so a file is read part by part;
* `declarations_block` — a block is read as its header and its body, whatever the body holds;
* `members_append` and `members_flatMap` — the same for what lies inside of declarations.
-/

namespace Bindery.Code

/-! ### Reading declarations -/

/-- **The text begins with one of the marks.** -/
def begins (marks : List String) (text : String) : Bool := marks.any (Text.startsWith · text)

/-- The lines in front that are deeper than the outermost level, one level further out. -/
def inside (ls : List Line) : List Line :=
  (ls.takeWhile fun l => 0 < l.depth).map fun l => { l with depth := l.depth - 1 }

/-- **The declarations of the outermost level** that begin with one of the marks, each with what
lies inside of it. -/
def declarations (marks : List String) : List Line → List (String × List Line)
  | [] => []
  | l :: rest =>
    if l.depth = 0 ∧ begins marks l.text then (l.text, inside rest) :: declarations marks rest
    else declarations marks rest

/-- **The declarations inside of declarations**, each behind the one that it lies in. -/
def members (outer inner : List String) (ls : List Line) : List (String × String × List Line) :=
  (declarations outer ls).flatMap fun d => (declarations inner d.2).map (d.1, ·)

/-- **The name that is declared**: the last word in front of the first parenthesis. -/
def nameIn (text : String) : String :=
  String.ofList
    ((text.toList.takeWhile (· ≠ '(')).reverse.takeWhile (· ≠ ' ')).reverse

/-- The code starts at the outermost level, if there is any. -/
def Outer (ls : List Line) : Prop := ∀ l ∈ ls.head?, l.depth = 0

/-! ### Marks -/

theorem startsWith_iff {start s : String} :
    Text.startsWith start s = true ↔ start.toList <+: s.toList := by
  rw [Text.startsWith, Option.isSome_iff_exists]
  simp only [Text.dropPrefixList?_eq_some_iff]
  exact ⟨fun ⟨rest, h⟩ => ⟨rest, h.symm⟩, fun ⟨rest, h⟩ => ⟨rest, h.symm⟩⟩

/-- Texts that begin alike begin with the same marks, as long as none of the marks goes on where
what they have in common ends. -/
theorem begins_append {marks : List String} {s : String}
    (hs : ∀ m ∈ marks, m.length ≤ s.length ∨ Text.startsWith s m = false) (t : String) :
    begins marks (s ++ t) = begins marks s := by
  have hmark : ∀ m ∈ marks, Text.startsWith m (s ++ t) = Text.startsWith m s := by
    intro m hm
    rw [Bool.eq_iff_iff, startsWith_iff, startsWith_iff, String.toList_append]
    refine ⟨fun h => ?_, fun h => h.trans (List.prefix_append _ _)⟩
    rcases hs m hm with hlength | hno
    · exact List.prefix_of_prefix_length_le h (List.prefix_append _ _)
        (by simpa only [String.length_toList] using hlength)
    · -- the mark would go on behind the text
      rcases List.prefix_or_prefix_of_prefix h (List.prefix_append s.toList t.toList) with h' | h'
      · exact h'
      · rw [startsWith_iff.mpr h'] at hno
        cases hno
  rw [begins, begins, Bool.eq_iff_iff, List.any_eq_true, List.any_eq_true]
  exact exists_congr fun m => and_congr_right fun hm => by rw [hmark m hm]

/-! ### Names -/

/-- The name stands between what is in front and the parenthesis. -/
theorem nameIn_eq {lead name : String} (rest : String) (hlead : '(' ∉ lead.toList)
    (hends : lead.toList.getLast?.all (· = ' ')) (hname : ∀ c ∈ name.toList, c ≠ '(' ∧ c ≠ ' ') :
    nameIn (lead ++ name ++ "(" ++ rest) = name := by
  -- The first bracket is the one behind the name.
  have hfront : (lead ++ name ++ "(" ++ rest).toList.takeWhile (· ≠ '(') =
      lead.toList ++ name.toList := by
    have hopen : "(".toList = ['('] := rfl
    rw [String.toList_append, String.toList_append, String.toList_append, hopen,
      List.append_assoc, List.takeWhile_append_of_pos]
    · simp
    · intro c hc
      rw [decide_eq_true_eq]
      rcases List.mem_append.mp hc with hc | hc
      · rintro rfl
        exact hlead hc
      · exact (hname c hc).1
  -- Read from behind, the name goes on up to the blank that the lead ends with.
  have hword : (name.toList.reverse ++ lead.toList.reverse).takeWhile (· ≠ ' ') =
      name.toList.reverse := by
    rw [List.takeWhile_append_of_pos]
    · rw [List.takeWhile_eq_nil_iff.mpr, List.append_nil]
      intro hlt hne
      cases hlast : lead.toList.reverse with
      | nil =>
        rw [hlast] at hlt
        simp at hlt
      | cons c cs =>
        have hc : lead.toList.getLast? = some c := by
          rw [← List.head?_reverse, hlast, List.head?_cons]
        rw [hc, Option.all_some, decide_eq_true_eq] at hends
        simp [hlast, hends] at hne
    · intro c hc
      rw [decide_eq_true_eq]
      exact (hname c (List.mem_reverse.mp hc)).2
  rw [nameIn, hfront, List.reverse_append, hword, List.reverse_reverse, String.ofList_toList]

/-! ### The outermost level -/

theorem outer_nil : Outer [] := by
  simp [Outer]

theorem outer_cons {l : Line} (h : l.depth = 0) (ls : List Line) : Outer (l :: ls) := by
  simpa [Outer] using h

theorem outer_lines (texts : List String) : Outer (lines texts) := by
  cases texts with
  | nil => exact outer_nil
  | cons text rest => exact outer_cons rfl _

theorem outer_block (header : String) (body : List Line) : Outer (block header body) :=
  outer_cons rfl _

theorem Outer.append {a b : List Line} (ha : Outer a) (hb : Outer b) : Outer (a ++ b) := by
  cases a with
  | nil => exact hb
  | cons l ls => exact outer_cons (ha l rfl) _

theorem outer_flatMap {α : Type} {f : α → List Line} (h : ∀ x, Outer (f x)) (xs : List α) :
    Outer (xs.flatMap f) := by
  induction xs with
  | nil => exact outer_nil
  | cons x xs ih => exact (h x).append ih

/-! ### Part by part -/

/-- What lies inside ends where the outermost level is reached again. -/
theorem inside_append {a b : List Line} (hb : Outer b) : inside (a ++ b) = inside a := by
  induction a with
  | nil =>
    cases b with
    | nil => rfl
    | cons l ls => simp [inside, hb l rfl]
  | cons l ls ih =>
    unfold inside at ih ⊢
    rw [List.cons_append, List.takeWhile_cons, List.takeWhile_cons]
    split
    · rw [List.map_cons, List.map_cons, ih]
    · rfl

theorem inside_indent (body : List Line) : inside (indent body) = body := by
  induction body with
  | nil => rfl
  | cons l ls ih =>
    unfold inside indent at ih ⊢
    rw [List.map_cons, List.takeWhile_cons, if_pos (by simp), List.map_cons, ih]
    rfl

variable {marks outer inner : List String}

/-- **A file is read part by part**, where the parts start at the outermost level. -/
theorem declarations_append (a : List Line) {b : List Line} (hb : Outer b) :
    declarations marks (a ++ b) = declarations marks a ++ declarations marks b := by
  induction a with
  | nil => rfl
  | cons l ls ih =>
    rw [List.cons_append, declarations, declarations, inside_append hb, ih]
    split <;> rfl

theorem declarations_flatMap {α : Type} {f : α → List Line} (h : ∀ x, Outer (f x)) (xs : List α) :
    declarations marks (xs.flatMap f) = xs.flatMap fun x => declarations marks (f x) := by
  induction xs with
  | nil => rfl
  | cons x xs ih =>
    rw [List.flatMap_cons, declarations_append _ (outer_flatMap h xs), ih, List.flatMap_cons]

/-- Lines of the outermost level have nothing inside. -/
theorem declarations_lines (texts : List String) :
    declarations marks (lines texts) = (texts.filter (begins marks)).map (·, []) := by
  induction texts with
  | nil => rfl
  | cons text rest ih =>
    -- The lines are all at the margin, so nothing stands inside of one of them.
    have hinside : inside (lines rest) = [] := by
      simpa [inside] using inside_append (a := []) (outer_lines rest)
    change (if _ then _ else _) = _
    rw [List.filter_cons]
    by_cases hbegins : begins marks text = true
    · rw [if_pos ⟨rfl, hbegins⟩, if_pos hbegins, List.map_cons]
      exact congrArg₂ _ (Prod.ext rfl hinside) ih
    · rw [if_neg fun h => hbegins h.2, if_neg hbegins]
      exact ih

/-- Deeper lines declare nothing. -/
theorem declarations_indent (body : List Line) : declarations marks (indent body) = [] := by
  induction body with
  | nil => rfl
  | cons l ls ih =>
    change (if _ then _ else _) = _
    rw [if_neg (by simp)]
    exact ih

/-- Where nothing is declared, deeper lines behind change nothing. -/
theorem declarations_append_indent {a : List Line} (ha : declarations marks a = [])
    (body : List Line) : declarations marks (a ++ indent body) = [] := by
  induction a with
  | nil => exact declarations_indent body
  | cons l ls ih =>
    rw [declarations] at ha
    split at ha
    · cases ha
    · next hl =>
      rw [List.cons_append, declarations, if_neg hl]
      exact ih ha

/-- **A block is its header with the body inside**, if the header begins with a mark. -/
theorem declarations_block (hclose : begins marks "\x7d" = false) (header : String)
    (body : List Line) :
    declarations marks (block header body) =
      if begins marks (header ++ " \x7b") then [(header ++ " \x7b", body)] else [] := by
  have hrest : declarations marks (indent body ++ [{ text := "\x7d" }]) = [] := by
    rw [declarations_append _ (outer_cons rfl _), declarations_indent]
    simp [declarations, hclose]
  have hinside : inside (indent body ++ [{ text := "\x7d" }]) = body := by
    rw [inside_append (outer_cons rfl _), inside_indent]
  rw [block, blockWith, enclosed, List.cons_append, declarations, hrest, hinside]
  simp

theorem members_append (a : List Line) {b : List Line} (hb : Outer b) :
    members outer inner (a ++ b) = members outer inner a ++ members outer inner b := by
  rw [members, declarations_append a hb, List.flatMap_append]
  rfl

theorem members_flatMap {α : Type} {f : α → List Line} (h : ∀ x, Outer (f x)) (xs : List α) :
    members outer inner (xs.flatMap f) = xs.flatMap fun x => members outer inner (f x) := by
  rw [members, declarations_flatMap h, List.flatMap_assoc]
  rfl

/-- Lines of the outermost level have no members. -/
theorem members_lines (texts : List String) : members outer inner (lines texts) = [] := by
  rw [members, declarations_lines, List.flatMap_map, List.flatMap_eq_nil_iff]
  intro text _
  rfl

/-- **The members of a block** are the declarations of its body. -/
theorem members_block (hclose : begins outer "\x7d" = false) (header : String)
    (body : List Line) :
    members outer inner (block header body) =
      if begins outer (header ++ " \x7b") then
        (declarations inner body).map (header ++ " \x7b", ·) else [] := by
  rw [members, declarations_block hclose]
  split
  · rw [List.flatMap_cons, List.flatMap_nil, List.append_nil]
  · rfl

end Bindery.Code
