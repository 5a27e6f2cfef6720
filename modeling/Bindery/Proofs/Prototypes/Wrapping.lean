import Bindery.Abi.Signature
import Bindery.Code.Writer
import Bindery.Proofs.Commentary.Lines

/-!
# Wrapped prototypes

A signature is written on one line if it is short, and else with one parameter a line, one level
deeper. Which of the two it is must not change the declaration. To say so, a wrapped prototype is
put together again: each line is taken without its indentation, the second one goes directly behind
the first, as it does inside a parenthesis, and the others follow with one blank in between.

* `Writer.code_eq` — writing lines at any level appends their text, with the level added to their
  depths, and leaves the level as it was;
* `Writer.code_indent` — so lines that are one level deeper are what a writer one level deeper
  writes, which then returns to its level;
* `writtenLines_render` — lines without line feeds are the lines of the text that they make;
* `Signature.lines_prototype` — a signature is written like its prototype, in which all types are
  spelled, so that nothing hangs on which spellings types have;
* `intercalate_declarationLines` — parameters on lines of their own are the list of the parameters;
* `wrapping_loses_nothing` — hence both forms of any prototype hold the same text, and the number of
  lines says which form it is.
-/

namespace Bindery

open Text

namespace Text

/-- **A text without line feeds.** -/
def IsUnbroken (s : String) : Prop := '\n' ∉ s.toList

instance (s : String) : Decidable (IsUnbroken s) := inferInstanceAs (Decidable ('\n' ∉ s.toList))

theorem IsUnbroken.append {s t : String} (hs : IsUnbroken s) (ht : IsUnbroken t) :
    IsUnbroken (s ++ t) := by
  rw [IsUnbroken, String.toList_append, List.mem_append, not_or]
  exact ⟨hs, ht⟩

theorem isUnbroken_commaSep {pieces : List String} (h : ∀ s ∈ pieces, IsUnbroken s) :
    IsUnbroken (commaSep pieces) := by
  have hempty : IsUnbroken "" := List.not_mem_nil
  have hcomma : IsUnbroken ", " := by decide
  induction pieces with
  | nil => exact hempty
  | cons s rest ih =>
    rw [List.forall_mem_cons] at h
    by_cases hrest : rest = []
    · rw [hrest, commaSep, String.intercalate_singleton]
      exact h.1
    · rw [commaSep, String.intercalate_cons_of_ne_nil hrest]
      exact (h.1.append hcomma).append (ih h.2)

end Text

/-! ### Lines at a level -/

namespace Line

/-- The line at a level. -/
def below (level : Nat) (l : Line) : Line := { l with depth := level + l.depth }

/-- The line as it is written, without its line feed. -/
def written (unit : String) (l : Line) : String :=
  if l.text = "" then "" else times l.depth unit ++ l.text

end Line

namespace Writer

theorem line_eq (w : Writer) (s : String) :
    w.line s = { w with buffer := w.buffer ++ Line.render w.unit ⟨w.level, s⟩ } := by
  unfold Writer.line Line.render
  split
  · rfl
  · simp only [Writer.write, Writer.writeIndent, String.append_assoc]

/-- **Writing lines appends their text at the level of the writer**, and changes nothing else. -/
theorem code_eq (w : Writer) (ls : List Line) :
    w.code ls = { w with buffer := w.buffer ++ Code.render w.unit (ls.map (Line.below w.level)) } := by
  induction ls generalizing w with
  | nil =>
    rw [List.map_nil, Code.render, List.map_nil, String.join_nil, String.append_empty]
    rfl
  | cons l ls ih =>
    have hfirst : w.code (l :: ls) =
        ({ w with buffer := w.buffer ++ Line.render w.unit (l.below w.level) } : Writer).code ls := by
      rw [Writer.code, List.foldl_cons, line_eq]
      rfl
    rw [hfirst, ih, List.map_cons, Code.render, Code.render, List.map_cons, String.join_cons,
      String.append_assoc]

/-- Lines that are one level deeper are written by a writer that is. -/
theorem code_indent (w : Writer) (ls : List Line) :
    w.code (Code.indent ls) = (w.indent.code ls).dedent := by
  have hbelow : (Code.indent ls).map (Line.below w.level) = ls.map (Line.below (w.level + 1)) := by
    rw [Code.indent, List.map_map]
    refine List.map_congr_left fun l _ => ?_
    rw [Function.comp_apply, Line.below, Line.below, Nat.add_right_comm, Nat.add_assoc]
  rw [code_eq, code_eq, hbelow]
  rfl

end Writer

/-! ### Reading lines back -/

namespace Text

/-- The lines of a text in which every line ends in a line feed. -/
def writtenLines (text : String) : List String := (cut '\n' text).dropLast

/-- What is behind the indentation of a line, if the line is as deep as that. -/
def unindent? (unit : String) (depth : Nat) (line : String) : Option String :=
  dropPrefix? (times depth unit) line

/-- **The text of a wrapped prototype on one line.** The first line is at the level, the others are
one level deeper; the second one follows the first directly and the others follow with one blank. -/
def unwrap? (unit : String) (level : Nat) : List String → Option String
  | [] => none
  | first :: rest => do
    let start ← unindent? unit level first
    let params ← rest.mapM (unindent? unit (level + 1))
    return start ++ " ".intercalate params

end Text

variable {unit : String}

theorem unindent?_written {l : Line} (h : l.text ≠ "") :
    unindent? unit l.depth (l.written unit) = some l.text := by
  rw [unindent?, dropPrefix?_eq_some_iff, Line.written, if_neg h]

/-- Lines of one depth are read back all together. -/
theorem mapM_unindent?_written {depth : Nat} {ls : List Line}
    (h : ∀ l ∈ ls, l.depth = depth ∧ l.text ≠ "") :
    (ls.map (Line.written unit)).mapM (unindent? unit depth) = some (ls.map (·.text)) := by
  induction ls with
  | nil => rfl
  | cons l ls ih =>
    rw [List.forall_mem_cons] at h
    obtain ⟨⟨hdepth, htext⟩, hrest⟩ := h
    rw [List.map_cons, List.mapM_cons, ih hrest, ← hdepth, unindent?_written htext]
    rfl

theorem isUnbroken_written (hunit : IsUnbroken unit) {l : Line} (h : IsUnbroken l.text) :
    IsUnbroken (l.written unit) := by
  rw [Line.written]
  split
  · exact List.not_mem_nil
  · exact IsUnbroken.append (fun hmem => hunit (mem_times hmem)) h

/-- **Lines without line feeds are read back from their text.** -/
theorem writtenLines_render (hunit : IsUnbroken unit) {ls : List Line}
    (h : ∀ l ∈ ls, IsUnbroken l.text) :
    writtenLines (Code.render unit ls) = ls.map (Line.written unit) := by
  have hcut : cutList '\n' (Code.render unit ls).toList =
      ls.map (fun l => (l.written unit).toList) ++ [[]] := by
    induction ls with
    | nil => rfl
    | cons l ls ih =>
      rw [List.forall_mem_cons] at h
      have hrender : (Code.render unit (l :: ls)).toList =
          (l.written unit).toList ++ '\n' :: (Code.render unit ls).toList := by
        rw [Code.render, List.map_cons, String.join_cons, String.toList_append, Line.toList_render,
          List.append_assoc]
        rfl
      -- no line feed is in the line, so the first one is the one behind it
      rw [hrender, cutList_eq_splitOn,
        List.splitOn_append_cons_self_of_not_mem (isUnbroken_written hunit h.1),
        ← cutList_eq_splitOn, ih h.2]
      rfl
  rw [writtenLines, cut, hcut, List.map_append, List.map_singleton, List.dropLast_concat,
    List.map_map]
  refine List.map_congr_left fun l _ => ?_
  exact String.ofList_toList

/-- **A line with others one level deeper**, all of them with a text, is put together again from the
text that they make at any level. -/
theorem unwrap?_writtenLines (hunit : IsUnbroken unit) {first : String} {rest : List Line}
    (hfirst : first ≠ "" ∧ IsUnbroken first)
    (hrest : ∀ l ∈ rest, l.depth = 0 ∧ l.text ≠ "" ∧ IsUnbroken l.text) (level : Nat) :
    let ls : List Line := { text := first } :: Code.indent rest
    let read := writtenLines (Code.render unit (ls.map (Line.below level)))
    read.length = rest.length + 1 ∧
      unwrap? unit level read = some (first ++ " ".intercalate (rest.map (·.text))) := by
  intro ls read
  -- the other lines, where the writer puts them
  set deeper : List Line := (Code.indent rest).map (Line.below level) with hdeeper
  have hdeep : ∀ l ∈ deeper, ∃ m ∈ rest, l.depth = level + 1 ∧ l.text = m.text := by
    intro l hl
    rw [hdeeper, Code.indent, List.map_map] at hl
    obtain ⟨m, hm, rfl⟩ := List.mem_map.mp hl
    refine ⟨m, hm, ?_, rfl⟩
    change level + (m.depth + 1) = level + 1
    rw [(hrest m hm).1]
  have htexts : deeper.map (·.text) = rest.map (·.text) := by
    rw [hdeeper, Code.indent, List.map_map, List.map_map]
    rfl
  have hunbroken : ∀ l ∈ ({ depth := level, text := first } : Line) :: deeper, IsUnbroken l.text := by
    intro l hl
    rcases List.mem_cons.mp hl with rfl | hl
    · exact hfirst.2
    · obtain ⟨m, hm, -, htext⟩ := hdeep l hl
      rw [htext]
      exact (hrest m hm).2.2
  -- as no text breaks a line, the lines that are read are those that were written
  have hread : read =
      ({ depth := level, text := first } : Line).written unit :: deeper.map (Line.written unit) :=
    writtenLines_render hunit hunbroken
  have hparams : (deeper.map (Line.written unit)).mapM (unindent? unit (level + 1)) =
      some (rest.map (·.text)) := by
    rw [mapM_unindent?_written fun l hl => ?_, htexts]
    obtain ⟨m, hm, hdepth, htext⟩ := hdeep l hl
    rw [htext]
    exact ⟨hdepth, (hrest m hm).2.1⟩
  rw [hread]
  constructor
  · rw [List.length_cons, List.length_map, hdeeper, List.length_map, Code.length_indent]
  · rw [unwrap?, unindent?_written (l := { depth := level, text := first }) hfirst.1, hparams]
    rfl

namespace Abi

/-! ### Signatures with all types spelled -/

/-- **A C function as text**: what a signature is once its types are spelled. -/
structure Prototype where
  answer : String
  symbol : String
  /-- Types and names. -/
  params : List (String × String)
deriving DecidableEq, Repr

namespace Prototype

def declarations (p : Prototype) : List String := p.params.map fun q => q.1 ++ " " ++ q.2

/-- The parameters between the parentheses. -/
def paramList (p : Prototype) : String :=
  if p.params.isEmpty then "void" else commaSep p.declarations

/-- The text before the opening parenthesis, behind the lead word if there is one. -/
def start (p : Prototype) (lead : Option String) : String :=
  match lead with
  | some word => word ++ " " ++ p.answer ++ " " ++ p.symbol
  | none => p.answer ++ " " ++ p.symbol

/-- The prototype on one line. -/
def head (p : Prototype) (lead : Option String) : String :=
  p.start lead ++ "(" ++ p.paramList ++ ")"

/-- One declaration a line, each but the last with a comma. -/
def declarationLines (terminator : String) : List String → List Line
  | [] => []
  | [d] => [d ++ ")" ++ terminator]
  | d :: d' :: rest => (d ++ "," : String) :: declarationLines terminator (d' :: rest)

/-- The prototype on one line if it is short, else one parameter a line. -/
def lines (p : Prototype) (lead : Option String) (terminator : String) : List Line :=
  if (p.head none).utf8ByteSize ≤ Signature.maxWidth || p.params.isEmpty then
    [p.head lead ++ terminator]
  else
    (p.start lead ++ "(" : String) :: Code.indent (declarationLines terminator p.declarations)

end Prototype

namespace Signature

def prototype (s : Signature) : Prototype where
  answer := s.answer.c
  symbol := s.symbol
  params := s.params.map fun p => (p.type.c, p.name)

variable (s : Signature) (lead : Option String) (terminator : String)

theorem isEmpty_prototype : s.prototype.params.isEmpty = s.params.isEmpty := by
  rw [prototype, List.isEmpty_map]

theorem declarations_prototype :
    s.prototype.declarations = s.params.map Param.declaration := by
  rw [Prototype.declarations, prototype, List.map_map]
  rfl

theorem start_prototype : s.prototype.start lead = s.start lead := by
  cases lead with
  | none => rfl
  | some word => rfl

theorem head_prototype : s.prototype.head lead = s.head lead := by
  rw [Prototype.head, head, start_prototype, Prototype.paramList, paramList, isEmpty_prototype,
    declarations_prototype]

theorem declarationLines_map (ps : List Param) :
    Prototype.declarationLines terminator (ps.map Param.declaration) =
      paramLines terminator ps := by
  induction ps using paramLines.induct with
  | case1 => rfl
  | case2 p => rfl
  | case3 p q rest ih =>
    rw [paramLines, ← ih]
    rfl

/-- **A signature is written like its prototype.** -/
theorem lines_prototype : s.prototype.lines lead terminator = s.lines lead terminator := by
  rw [Prototype.lines, lines, head_prototype, head_prototype, start_prototype, isEmpty_prototype,
    declarations_prototype, declarationLines_map]

end Signature

namespace Prototype

/-! ### Parameters on lines of their own -/

theorem length_declarations (p : Prototype) : p.declarations.length = p.params.length := by
  rw [declarations, List.length_map]

theorem length_declarationLines (terminator : String) (ds : List String) :
    (declarationLines terminator ds).length = ds.length := by
  induction ds using declarationLines.induct with
  | case1 => rfl
  | case2 d => rfl
  | case3 d d' rest ih => rw [declarationLines, List.length_cons, ih, List.length_cons (a := d)]

/-- Each line has a declaration, with what separates it from the next one or ends the list. -/
theorem mem_declarationLines {terminator : String} {ds : List String} {l : Line}
    (h : l ∈ declarationLines terminator ds) :
    ∃ d ∈ ds, l = { text := d ++ "," } ∨ l = { text := d ++ ")" ++ terminator } := by
  induction ds using declarationLines.induct with
  | case1 => cases h
  | case2 d =>
    exact ⟨d, List.mem_cons_self, .inr (List.mem_singleton.mp h)⟩
  | case3 d d' rest ih =>
    rcases List.mem_cons.mp h with rfl | h
    · exact ⟨d, List.mem_cons_self, .inl rfl⟩
    · obtain ⟨e, he, hl⟩ := ih h
      exact ⟨e, List.mem_cons_of_mem _ he, hl⟩

/-- **Parameters on lines of their own are the list of the parameters**, once the lines are joined
with blanks. -/
theorem intercalate_declarationLines (terminator : String) {ds : List String} (h : ds ≠ []) :
    " ".intercalate ((declarationLines terminator ds).map (·.text)) =
      commaSep ds ++ ")" ++ terminator := by
  -- only the line of the last parameter has the parenthesis, so that is a case of its own
  induction ds using declarationLines.induct with
  | case1 => exact absurd rfl h
  | case2 d =>
    rw [declarationLines, List.map_singleton, commaSep, String.intercalate_singleton,
      String.intercalate_singleton]
  | case3 d d' rest ih =>
    have hrest : (declarationLines terminator (d' :: rest)).map (·.text) ≠ [] := by
      rw [ne_eq, List.map_eq_nil_iff, ← List.length_eq_zero_iff, length_declarationLines]
      exact Nat.succ_ne_zero _
    rw [declarationLines, List.map_cons, String.intercalate_cons_of_ne_nil hrest,
      ih (List.cons_ne_nil d' rest), commaSep, commaSep, String.intercalate_cons_cons]
    simp only [String.append_assoc]
    rfl

variable {p : Prototype} {lead : Option String} {terminator : String}

/-- **No line feed stands in a part of the prototype**, nor in what is written around it. -/
structure IsUnbroken (p : Prototype) (lead : Option String) (terminator : String) : Prop where
  answer : Text.IsUnbroken p.answer
  symbol : Text.IsUnbroken p.symbol
  params : ∀ q ∈ p.params, Text.IsUnbroken q.1 ∧ Text.IsUnbroken q.2
  lead : ∀ word, lead = some word → Text.IsUnbroken word
  terminator : Text.IsUnbroken terminator

namespace IsUnbroken

theorem declarations (h : p.IsUnbroken lead terminator) {d : String} (hd : d ∈ p.declarations) :
    Text.IsUnbroken d := by
  obtain ⟨q, hq, rfl⟩ := List.mem_map.mp hd
  obtain ⟨htype, hname⟩ := h.params q hq
  have hblank : Text.IsUnbroken " " := by decide
  exact (htype.append hblank).append hname

theorem start (h : p.IsUnbroken lead terminator) : Text.IsUnbroken (p.start lead) := by
  have hblank : Text.IsUnbroken " " := by decide
  cases hlead : lead with
  | none => exact (h.answer.append hblank).append h.symbol
  | some word =>
    exact ((((h.lead word hlead).append hblank).append h.answer).append hblank).append h.symbol

theorem paramList (h : p.IsUnbroken lead terminator) : Text.IsUnbroken p.paramList := by
  rw [Prototype.paramList]
  split
  · exact (by decide : Text.IsUnbroken "void")
  · exact isUnbroken_commaSep fun d hd => h.declarations hd

theorem head (h : p.IsUnbroken lead terminator) : Text.IsUnbroken (p.head lead) := by
  have hopen : Text.IsUnbroken "(" := by decide
  have hclose : Text.IsUnbroken ")" := by decide
  exact ((h.start.append hopen).append h.paramList).append hclose

theorem declarationLines (h : p.IsUnbroken lead terminator) {l : Line}
    (hl : l ∈ Prototype.declarationLines terminator p.declarations) :
    l.depth = 0 ∧ l.text ≠ "" ∧ Text.IsUnbroken l.text := by
  have hcomma : Text.IsUnbroken "," := by decide
  have hclose : Text.IsUnbroken ")" := by decide
  obtain ⟨d, hd, rfl | rfl⟩ := mem_declarationLines hl
  · exact ⟨rfl, by simp, (h.declarations hd).append hcomma⟩
  · exact ⟨rfl, by simp, ((h.declarations hd).append hclose).append h.terminator⟩

end IsUnbroken

/-- The prototype is written on one line. -/
theorem isShort_iff :
    ((p.head none).utf8ByteSize ≤ Signature.maxWidth || p.params.isEmpty) = true ↔
      (p.head none).utf8ByteSize ≤ 80 ∨ p.params = [] := by
  rw [Bool.or_eq_true, decide_eq_true_eq, List.isEmpty_iff]
  rfl

/-- **The number of lines says which form a prototype has, and both forms hold the same text.** A
signature is written like its prototype. A writer at any level, with any indentation, writes a
prototype behind what it holds and stays at its level. The lines written, without their indentation,
the second directly behind the first and the others with one blank in between, are the prototype on
one line. There is a single line exactly when the prototype without the lead word has at most 80
bytes or there are no parameters, and else there is one for each parameter and one more. -/
theorem wrapping_loses_nothing :
    (∀ (s : Signature) (lead : Option String) (terminator : String),
      s.prototype.head lead = s.head lead ∧
        s.prototype.lines lead terminator = s.lines lead terminator) ∧
      ∀ (p : Prototype) (lead : Option String) (terminator : String),
        p.IsUnbroken lead terminator → ∀ w : Writer, Text.IsUnbroken w.unit →
          ∃ text, w.code (p.lines lead terminator) = { w with buffer := w.buffer ++ text } ∧
            unwrap? w.unit w.level (writtenLines text) = some (p.head lead ++ terminator) ∧
            ((writtenLines text).length = 1 ↔
              (p.head none).utf8ByteSize ≤ 80 ∨ p.params = []) ∧
            (¬ ((p.head none).utf8ByteSize ≤ 80 ∨ p.params = []) →
              (writtenLines text).length = p.params.length + 1) := by
  refine ⟨fun s lead terminator => ⟨s.head_prototype lead, s.lines_prototype lead terminator⟩,
    fun p lead terminator h w hunit => ⟨_, Writer.code_eq w _, ?_⟩⟩
  by_cases hshort : (p.head none).utf8ByteSize ≤ 80 ∨ p.params = []
  · -- a single line is a first line with none below it
    have hlines : p.lines lead terminator =
        ({ text := p.head lead ++ terminator } : Line) :: Code.indent [] :=
      if_pos (isShort_iff.mpr hshort)
    have htext : p.head lead ++ terminator ≠ "" := by simp [head]
    have hnone : ∀ l ∈ ([] : List Line), l.depth = 0 ∧ l.text ≠ "" ∧ Text.IsUnbroken l.text := nofun
    obtain ⟨hlength, hunwrap⟩ :=
      unwrap?_writtenLines hunit ⟨htext, h.head.append h.terminator⟩ hnone w.level
    rw [hlines]
    refine ⟨?_, iff_of_true hlength hshort, fun hlong => absurd hshort hlong⟩
    rw [hunwrap, List.map_nil, String.intercalate_nil, String.append_empty]
  · -- the first line ends in the open parenthesis, and the last parameter closes it
    have hlines : p.lines lead terminator = ({ text := p.start lead ++ "(" } : Line) ::
        Code.indent (declarationLines terminator p.declarations) :=
      if_neg (isShort_iff.not.mpr hshort)
    obtain ⟨-, hparams⟩ := not_or.mp hshort
    have hdeclarations : p.declarations ≠ [] := List.map_eq_nil_iff.not.mpr hparams
    have hopen : Text.IsUnbroken "(" := by decide
    obtain ⟨hlength, hunwrap⟩ := unwrap?_writtenLines hunit
      ⟨by simp, h.start.append hopen⟩ (fun l hl => h.declarationLines hl) w.level
    rw [length_declarationLines, length_declarations] at hlength
    rw [hlines]
    refine ⟨?_, ?_, fun _ => hlength⟩
    · rw [hunwrap, intercalate_declarationLines terminator hdeclarations, head, paramList,
        if_neg (by simpa using hparams)]
      simp only [String.append_assoc]
    · refine iff_of_false ?_ hshort
      rw [hlength, Nat.add_eq_right, List.length_eq_zero_iff]
      exact hparams

/-- A long signature with three parameters. -/
def textureSignature : Signature where
  answer := .status
  symbol := "example_app_engine_texture_load_texture_from_path"
  args := [⟨.value (.handle "Renderer"), "renderer"⟩, ⟨.text, "path"⟩]
  out := some (.handle "Texture")

theorem wrapping_loses_nothing_texture :
    textureSignature.prototype.IsUnbroken (some "EXAMPLE_APP_EXPORT") ";" ∧
      Text.IsUnbroken Code.tab ∧
      ∃ text, (Writer.code ⟨"#include\n", 2, Code.tab⟩
          (textureSignature.lines (some "EXAMPLE_APP_EXPORT") ";")) =
            ⟨"#include\n" ++ text, 2, Code.tab⟩ ∧
        unwrap? Code.tab 2 (writtenLines text) = some
          ("EXAMPLE_APP_EXPORT int32_t example_app_engine_texture_load_texture_from_path(" ++
            "renderer_handle renderer, const char* path, texture_handle* out_result);") ∧
        (writtenLines text).length = 4 := by
  have hunbroken : textureSignature.prototype.IsUnbroken (some "EXAMPLE_APP_EXPORT") ";" := by
    refine ⟨by decide, by decide, by decide, ?_, by decide⟩
    rintro _ ⟨⟩
    decide
  have htab : Text.IsUnbroken Code.tab := by decide
  -- The general statement is applied; what is left to compute is the text without breaks.
  obtain ⟨hsame, hwrap⟩ := wrapping_loses_nothing
  obtain ⟨text, hcode, hunwrap, -, hlong⟩ :=
    hwrap textureSignature.prototype _ _ hunbroken ⟨"#include\n", 2, Code.tab⟩ htab
  rw [(hsame _ _ _).2] at hcode
  refine ⟨hunbroken, htab, text, hcode, ?_, hlong (by decide +kernel)⟩
  rw [hunwrap]
  decide +kernel

end Prototype

end Abi

end Bindery
