import Bindery.Proofs.Schema.Blanks
import Bindery.Proofs.Schema.Scanning
import Bindery.Schema.Resolve

/-!
# Comments and blank lines

Comments and blank lines mean nothing, in any text, be it a schema or not. A text with comments
added to its lines and further lines put between them (`Annotated`) is read like the text itself.
What is left of a line behind which a comment was written is the line with blanks at its end
(`trails_withoutComment`), and a line does not depend on those. A line without anything on it is
passed over where no definition waits to be settled (`Scan.Steady`), and every line leaves a scan
like that (`Scan.Steady.addLine`).

* `readLines_annotated` — the same is known behind the lines, whatever was known before them;
* `parse_annotated` — the same schema, or the same repeated definition;
* `Source.definitionsIn_annotated_lines`, `Source.definitionsIn_text` — the definitions of a schema
  with comments in it, and without.
-/

namespace Bindery.Schema

open Text (isBlank cutList dropPrefixList?)

/-! ### What is left of a line -/

theorem withoutComment_of_not_mem {cs : List Char} (h : '/' ∉ cs) : withoutComment cs = cs := by
  have hall := Source.withoutComment_append h []
  have hnil : withoutComment [] = [] := rfl
  rwa [List.append_nil, hnil, List.append_nil] at hall

/-- A comment up to the end of its line, or nothing. -/
def remarkChars : Option (List Char) → List Char
  | none => []
  | some remark => '/' :: '/' :: remark

/-- **A comment leaves what stands in front of it**, if that does not end in a slash. -/
theorem withoutComment_remark {cs : List Char} {remark : Option (List Char)}
    (h : remark.isSome → cs.getLast? ≠ some '/') :
    withoutComment (cs ++ remarkChars remark) = withoutComment cs := by
  cases remark with
  | none => rw [remarkChars, List.append_nil]
  | some remark =>
    have hlast : cs.getLast? ≠ some '/' := h rfl
    clear h
    rw [remarkChars]
    -- whether a comment begins at a slash depends on the next character, so the last one of `cs` is
    -- a case of its own
    induction cs with
    | nil => rfl
    | cons c cs ih =>
      cases cs with
      | nil =>
        have hc : c ≠ '/' := by simpa using hlast
        rw [List.singleton_append, Source.withoutComment_cons c fun heq => absurd heq hc,
          Source.withoutComment_cons c fun heq => absurd heq hc]
        rfl
      | cons d cs =>
        have hrest := ih (by simpa using hlast)
        by_cases hslashes : c = '/' ∧ d = '/'
        · obtain ⟨rfl, rfl⟩ := hslashes
          rfl
        · have hnone : ∀ t : List Char, c = '/' → (d :: t).head? ≠ some '/' := fun t hc hd =>
            hslashes ⟨hc, Option.some.inj hd⟩
          rw [List.cons_append, List.cons_append, Source.withoutComment_cons c (hnone _),
            Source.withoutComment_cons c (hnone _), ← List.cons_append, hrest]

/-- Blanks behind a line are behind what is left of it, if they are left at all. -/
theorem trails_withoutComment (cs : List Char) {b : List Char}
    (hb : ∀ c ∈ b, isBlank c = true) :
    Trails (withoutComment cs) (withoutComment (cs ++ b)) := by
  have hslash : '/' ∉ b := not_mem_blanks (by decide) hb
  induction cs with
  | nil =>
    rw [List.nil_append, withoutComment_of_not_mem hslash]
    exact .append [] hb
  | cons c cs ih =>
    by_cases hslashes : c = '/' ∧ cs.head? = some '/'
    · obtain ⟨rfl, hhead⟩ := hslashes
      obtain ⟨t, rfl⟩ := List.head?_eq_some_iff.mp hhead
      exact .refl []
    · have hc : c = '/' → cs.head? ≠ some '/' := fun hc hd => hslashes ⟨hc, hd⟩
      -- the blanks begin with no slash, so no comment begins with the last character of `cs`
      have hcb : c = '/' → (cs ++ b).head? ≠ some '/' := by
        intro hslash' hd
        cases cs with
        | nil => exact hslash (List.mem_of_head? hd)
        | cons d cs => exact hc hslash' hd
      rw [List.cons_append, Source.withoutComment_cons c hc, Source.withoutComment_cons c hcb]
      exact ih.cons c

/-! ### Scans that wait for nothing -/

/-- What is known behind some lines of a text. -/
def readLines (s : Scan) (ls : List (List Char)) : Scan :=
  ls.foldl (fun s l => s.addLine (withoutComment l)) s

theorem readLines_append (s : Scan) (ls ls' : List (List Char)) :
    readLines s (ls ++ ls') = readLines (readLines s ls) ls' := List.foldl_append ..

/-- **No definition that is still open has all its braces closed.** -/
def Scan.Steady (s : Scan) : Prop := ∀ u ∈ s.unclosed, u.isClosed = false

namespace Scan.Steady

variable {s : Scan}

/-- At the beginning nothing is open. -/
theorem start : ({} : Scan).Steady := fun u hu => absurd hu (Option.not_mem_none u)

theorem settle (u : Unclosed) : (s.settle u).Steady := by
  intro v hv
  by_cases hclosed : u.isClosed = true
  · rw [Scan.settle, if_pos hclosed] at hv
    cases hv
  · rw [Scan.settle, if_neg hclosed] at hv
    cases hv
    exact Bool.eq_false_iff.mpr hclosed

/-- **Every line leaves it so.** -/
theorem addLine (h : s.Steady) (line : List Char) : (s.addLine line).Steady := by
  rw [Scan.addLine]
  split
  next u _ => exact settle _
  next hnone =>
    split
    next scope _ => exact h
    next =>
      split
      next header _ => exact settle _
      next => exact h

/-- **So does a whole text.** -/
theorem readLines (h : s.Steady) (ls : List (List Char)) : (readLines s ls).Steady := by
  induction ls generalizing s with
  | nil => exact h
  | cons l ls ih => exact ih (h.addLine _)

end Scan.Steady

/-- **A line of blanks is passed over.** -/
theorem Scan.Steady.addLine_blanks {s : Scan} (h : s.Steady) {b : List Char}
    (hb : ∀ c ∈ b, isBlank c = true) : s.addLine b = s := by
  have htrails : Trails [] b := ⟨b, hb, rfl⟩
  rw [htrails.addLine_eq]
  obtain ⟨scope, found, unclosed⟩ := s
  cases unclosed with
  | none => rfl
  | some u =>
    have hopen : ¬ u.isClosed = true := Bool.eq_false_iff.mp (h u rfl)
    change (Scan.mk scope found (some u)).settle (u.addLine []) = _
    rw [Source.addLine_nil u, Scan.settle, if_neg hopen]

/-! ### Lines -/

/-- A line says the same with blanks behind it. -/
theorem addLine_withoutComment_append (s : Scan) (l : List Char) {b : List Char}
    (hb : ∀ c ∈ b, isBlank c = true) :
    s.addLine (withoutComment (l ++ b)) = s.addLine (withoutComment l) :=
  (trails_withoutComment l hb).addLine_eq s

/-- Lines are read the same without carriage returns at their ends. -/
theorem foldl_ended {f : List Char → List Char} (hf : ∀ l, l = f l ∨ l = f l ++ ['\r'])
    (s : Scan) (ls : List (List Char)) :
    ((ls.map f).map String.ofList).foldl (fun s l => s.addLine (withoutComment l.toList)) s =
      readLines s ls := by
  have hreturn : ∀ c ∈ ['\r'], isBlank c = true := List.forall_mem_singleton.mpr (by decide)
  have hline : ∀ (s : Scan) (l : List Char),
      s.addLine (withoutComment (f l)) = s.addLine (withoutComment l) := by
    intro s l
    rcases hf l with hl | hl
    · rw [← hl]
    · rw [hl, addLine_withoutComment_append s _ hreturn, ← hl]
  simp only [readLines, List.foldl_map, String.toList_ofList, hline]

/-- **A text is read piece by piece**, cut at its line feeds: neither a carriage return in front of
one nor an empty piece behind the last one makes a difference. -/
theorem definitionsIn_eq (text : String) :
    definitionsIn text = (readLines {} (cutList '\n' text.toList)).definitions := by
  have hpieces : cutList '\n' text.toList ≠ [] := by
    rw [Text.cutList_eq_splitOn]
    exact List.splitOn_ne_nil _ _
  obtain ⟨init, last, hconcat⟩ := (List.eq_nil_or_concat' _).resolve_left hpieces
  rw [definitionsIn, Text.lines, hconcat, List.dropLast_concat, List.getLast?_concat,
    List.map_append, List.foldl_append, foldl_ended, readLines_append]
  · cases last with
    | nil =>
      -- behind a final line feed there is nothing to read
      exact congrArg Scan.definitions ((Scan.Steady.start.readLines init).addLine_blanks (b := [])
        (List.forall_mem_nil _)).symm
    | cons c last => simp [readLines]
  · intro l
    split
    next rest hreverse => exact .inr (by simpa using congrArg List.reverse hreverse)
    next => exact .inl rfl

/-- Lines without comments are read as they are. -/
theorem readLines_eq_foldl {ls : List (List Char)} (h : ∀ line ∈ ls, Source.IsLine line)
    (s : Scan) : readLines s ls = ls.foldl Scan.addLine s := by
  induction ls generalizing s with
  | nil => rfl
  | cons l ls ih =>
    obtain ⟨hl, hrest⟩ := List.forall_mem_cons.mp h
    rw [readLines, List.foldl_cons, List.foldl_cons, hl.withoutComment]
    exact ih hrest _

/-! ### Annotations -/

/-- **Lines with comments added to some of them and further lines put between them.** -/
inductive Annotated : List (List Char) → List (List Char) → Prop
  /-- There may be no line. -/
  | nil : Annotated [] []
  /-- A line may get a comment, and other blanks at its end, of which a carriage return is one. No
  slash stands right in front of the comment. -/
  | line {ls ls' : List (List Char)} (l old new : List Char) (remark : Option (List Char))
      (hold : ∀ c ∈ old, isBlank c = true) (hnew : ∀ c ∈ new, isBlank c = true)
      (hslash : remark.isSome → (l ++ new).getLast? ≠ some '/') (h : Annotated ls ls') :
      Annotated ((l ++ old) :: ls) ((l ++ new ++ remarkChars remark) :: ls')
  /-- A line with nothing but blanks and perhaps a comment may be put in. -/
  | insert {ls ls' : List (List Char)} (gap : List Char) (remark : Option (List Char))
      (hgap : ∀ c ∈ gap, isBlank c = true) (h : Annotated ls ls') :
      Annotated ls ((gap ++ remarkChars remark) :: ls')

/-- A line may stay as it is. -/
theorem Annotated.same {ls ls' : List (List Char)} (l : List Char) (h : Annotated ls ls') :
    Annotated (l :: ls) (l :: ls') := by
  have hline := Annotated.line l [] [] none nofun nofun nofun h
  rwa [remarkChars, List.append_nil, List.append_nil] at hline

theorem Annotated.refl : ∀ ls : List (List Char), Annotated ls ls
  | [] => .nil
  | l :: ls => .same l (refl ls)

/-- **Annotations mean nothing**, whatever is known before the lines. -/
theorem readLines_annotated {ls ls' : List (List Char)} (h : Annotated ls ls') {s : Scan}
    (hs : s.Steady) : readLines s ls' = readLines s ls := by
  -- what is known before the lines changes with every line; that it waits for nothing is kept
  induction h generalizing s with
  | nil => rfl
  | line l old new remark hold hnew hslash _ ih =>
    have hline : s.addLine (withoutComment (l ++ new ++ remarkChars remark)) =
        s.addLine (withoutComment (l ++ old)) := by
      rw [withoutComment_remark hslash, addLine_withoutComment_append s l hnew,
        addLine_withoutComment_append s l hold]
    rw [readLines, List.foldl_cons, hline]
    exact ih (hs.addLine _)
  | insert gap remark hgap _ ih =>
    have hslash : '/' ∉ gap := not_mem_blanks (by decide) hgap
    have hline : withoutComment (gap ++ remarkChars remark) = gap := by
      rw [withoutComment_remark fun _ hlast => hslash (List.mem_of_getLast? hlast),
        withoutComment_of_not_mem hslash]
    rw [readLines, List.foldl_cons, hline, hs.addLine_blanks hgap]
    exact ih hs

/-- The definitions of an annotated text are those of its lines without the annotations. -/
theorem definitionsIn_annotated {ls : List (List Char)} {text : String}
    (h : Annotated ls (cutList '\n' text.toList)) :
    definitionsIn text = (readLines {} ls).definitions := by
  rw [definitionsIn_eq, readLines_annotated h .start]

/-- **Comments and blank lines are transparent**: of an annotated text the outcome is that of the
text, whether it is a schema or not. -/
theorem parse_annotated {text text' : String}
    (h : Annotated (cutList '\n' text.toList) (cutList '\n' text'.toList)) :
    parse text' = parse text := by
  rw [parse, parse, definitionsIn_annotated h, definitionsIn_eq text]

/-- An opening brace on a line of its own, and a definition that is never closed: comments with
braces and commas in them do not change what is made of the text. -/
theorem parse_annotated_unclosed :
    parse "\n // \x7b\nenum E // A,\n\t\n\x7b\n A = 4,\r\n B // \x7d\r\n" =
      parse "enum E\n\x7b\n A = 4,\r\n B\r\n" := by
  refine parse_annotated ?_
  have htext : cutList '\n' "enum E\n\x7b\n A = 4,\r\n B\r\n".toList =
      ["enum E".toList, ['\x7b'], " A = 4,\r".toList, " B\r".toList, []] := by decide
  have htext' : cutList '\n'
      "\n // \x7b\nenum E // A,\n\t\n\x7b\n A = 4,\r\n B // \x7d\r\n".toList =
      [[], " // \x7b".toList, "enum E // A,".toList, ['\t'], ['\x7b'], " A = 4,\r".toList,
        " B // \x7d\r".toList, []] := by decide
  have hspace : ∀ c ∈ [' '], isBlank c = true := List.forall_mem_singleton.mpr (by decide)
  have htab : ∀ c ∈ ['\t'], isBlank c = true := List.forall_mem_singleton.mpr (by decide)
  have hreturn : ∀ c ∈ ['\r'], isBlank c = true := List.forall_mem_singleton.mpr (by decide)
  have hnil : ∀ c ∈ [], isBlank c = true := List.forall_mem_nil _
  rw [htext, htext']
  -- The lines one by one: a line that is inserted, a remark behind a line, or a line as it was.
  refine .insert [] none hnil (.insert [' '] (some " \x7b".toList) hspace ?_)
  refine .line "enum E".toList [] [' '] (some " A,".toList) hnil hspace (by decide) ?_
  refine .insert ['\t'] none htab (.same _ (.same _ ?_))
  exact .line " B".toList ['\r'] [' '] (some " \x7d\r".toList) hreturn hspace (by decide)
    (.same _ .nil)

/-! ### Schemas with comments -/

namespace Source

/-- **The definitions of a schema**, comments and blank lines aside. -/
theorem definitionsIn_annotated_lines {ds : List Declaration} {text : String}
    (h : Annotated (ds.flatMap Declaration.lines) (cutList '\n' text.toList)) :
    definitionsIn text = declared "" ds := by
  rw [definitionsIn_annotated h, readLines_eq_foldl isLine_of_mem_flatMap, foldl_lines "" [] ds]
  simp only [Scan.definitions, List.nil_append, Option.map_none, Option.toList_none,
    List.append_nil]

/-- The lines of a text of declarations are those of the declarations. -/
theorem annotated_text (ds : List Declaration) :
    Annotated (ds.flatMap Declaration.lines) (cutList '\n' (text ds).toList) := by
  rw [text, String.toList_ofList, Text.cutList_eq_splitOn]
  rcases List.eq_nil_or_concat' (ds.flatMap Declaration.lines) with hnil | ⟨init, last, hconcat⟩
  · -- without declarations there is one line without anything on it
    rw [hnil]
    exact .insert [] none nofun .nil
  · have hunbroken : ∀ line ∈ ds.flatMap Declaration.lines, '\n' ∉ line := fun line hline =>
      (isLine_of_mem_flatMap line hline).unbroken
    rw [List.splitOn_intercalate '\n' hunbroken (by simp [hconcat])]
    exact .refl _

/-- **The scanner finds the types that a schema defines**, in order, each under the namespace that
was declared last. -/
theorem definitionsIn_text (ds : List Declaration) : definitionsIn (text ds) = declared "" ds :=
  definitionsIn_annotated_lines (annotated_text ds)

end Source

end Bindery.Schema
