import Bindery.Proofs.Yaml.Scalars
import Bindery.Yaml.Lexer

/-!
# Lexing descriptions line by line

A description as people write it is a list of lines: entries of tables and items of lists, each on a
line of its own and indented by blanks. What such a line adds to the tokens does not depend on where
it stands in the text, but on its column and on the blocks that are open before it. So the lexer
without its characters is enough to say what the tokens of a text are (`Line.lex`):

* `run_key`, `run_dash`, `run_plain`, `run_quoted` — one token or two of a line;
* `Ready` — the state between two lines, in which only empty lines and an indentation are left
  before the next line;
* `run_line` — a line leads from one such state to the next.

The main statement is `tokens_textOf`: the tokens of a text are those of its lines.
-/

namespace Bindery.Yaml

/-! ### Lines -/

/-- A scalar on one line. -/
inductive Inline where
  | plain (word : List Char)
  /-- Words between quotes. -/
  | quoted (first : List Char) (more : List (List Char))

namespace Inline

def text : Inline → List Char
  | plain w => w
  | quoted w ws => '"' :: (spaced (w :: ws) ++ ['"'])

def token : Inline → Token
  | plain w => .scalar (String.ofList w) .plain
  | quoted w ws => .scalar (String.ofList (spaced (w :: ws))) .explicit

def IsRight : Inline → Prop
  | plain w => IsPlainWord w
  | quoted w ws => ∀ v ∈ w :: ws, IsQuotedWord v

end Inline

/-- What stands on a line. -/
inductive Content where
  /-- A dash and a word. -/
  | item (word : List Char)
  /-- A key and perhaps its value, perhaps behind a dash. -/
  | entry (dash : Bool) (key : List Char) (value : Option Inline)

/-- A line, the empty lines above it and its indentation. -/
structure Line where
  above : Nat := 0
  column : Nat := 0
  content : Content

namespace Content

/-- The value behind a key, with a blank in front. -/
def valueText : Option Inline → List Char
  | none => []
  | some v => ' ' :: v.text

def text : Content → List Char
  | item w => '-' :: ' ' :: w
  | entry true key value => '-' :: ' ' :: (key ++ ':' :: valueText value)
  | entry false key value => key ++ ':' :: valueText value

/-- Words are plain, and keys are not too long to be found. -/
def IsRight : Content → Prop
  | item w => IsPlainWord w
  | entry _ key value =>
    IsPlainWord key ∧ Cursor.bytes key ≤ 1024 ∧ ∀ v ∈ value, v.IsRight

/-- Whether a scalar ends the line. -/
def hasScalar : Content → Bool
  | item _ => true
  | entry _ _ value => value.isSome

end Content

/-- The column of the block that a line belongs to, or that it opens behind a dash. -/
def Line.inner (l : Line) : Nat :=
  match l.content with
  | .entry true _ _ => l.column + 2
  | _ => l.column

/-- The text of lines. -/
def textOf : List Line → List Char
  | [] => []
  | l :: ls => lead l.above l.column ++ (l.content.text ++ '\n' :: textOf ls)

/-- The text of lines, without what is above the first one and in front of it. -/
def bodyOf : List Line → List Char
  | [] => []
  | l :: ls => l.content.text ++ '\n' :: textOf ls

def aboveOf (ls : List Line) : Nat := (ls.head?.map Line.above).getD 0

def columnOf (ls : List Line) : Nat := (ls.head?.map Line.column).getD 0

/-- **Lines fit** when nothing that follows a scalar is indented more than it. -/
def Fits : List Line → Prop
  | [] => True
  | l :: ls =>
    l.content.IsRight ∧ (l.content.hasScalar = true → columnOf ls ≤ l.inner) ∧ Fits ls

/-- A test for plain words that can be keys. -/
def isKey (w : List Char) : Bool :=
  w.head?.any Char.isAlphanum && w.all isPlainChar && w.getLast? != some ':' &&
    decide (Cursor.bytes w ≤ 1024)

/-- A test for words between quotes. -/
def isQuotable (w : List Char) : Bool :=
  !w.isEmpty && w.all fun c =>
    decide (0x20 < c.toNat) && decide (c.toNat < 0x7F) && c != '"' && c != '\\'

theorem isPlainWord_of_isKey {w : List Char} (h : isKey w = true) :
    IsPlainWord w ∧ Cursor.bytes w ≤ 1024 := by
  simp only [isKey, Bool.and_eq_true, List.all_eq_true, bne_iff_ne, decide_eq_true_iff] at h
  obtain ⟨⟨⟨hstart, hchars⟩, hlast⟩, hbytes⟩ := h
  refine ⟨⟨?_, hchars, hlast⟩, hbytes⟩
  cases w with
  | nil => cases hstart
  | cons c cs => exact ⟨c, cs, rfl, hstart⟩

theorem isQuotedWord_of_isQuotable {w : List Char} (h : isQuotable w = true) : IsQuotedWord w := by
  simp only [isQuotable, Bool.and_eq_true, List.all_eq_true, bne_iff_ne, decide_eq_true_iff,
    Bool.not_eq_true', List.isEmpty_eq_false_iff, and_assoc] at h
  exact ⟨h.1, fun c hc => ⟨⟨(h.2 c hc).1, (h.2 c hc).2.1⟩, (h.2 c hc).2.2⟩⟩

section Right

variable {key : List Char} (hkey : isKey key = true) (dash : Bool)

include hkey

theorem isRight_bare : (Content.entry dash key none).IsRight :=
  ⟨(isPlainWord_of_isKey hkey).1, (isPlainWord_of_isKey hkey).2, nofun⟩

theorem isRight_plain {w : List Char} (hw : IsPlainWord w) :
    (Content.entry dash key (some (.plain w))).IsRight := by
  refine ⟨(isPlainWord_of_isKey hkey).1, (isPlainWord_of_isKey hkey).2, ?_⟩
  rintro _ ⟨⟩
  exact hw

theorem isRight_quoted {w : List Char} {ws : List (List Char)}
    (hws : ∀ v ∈ w :: ws, isQuotable v = true) :
    (Content.entry dash key (some (.quoted w ws))).IsRight := by
  refine ⟨(isPlainWord_of_isKey hkey).1, (isPlainWord_of_isKey hkey).2, ?_⟩
  rintro _ ⟨⟩
  exact fun v hv => isQuotedWord_of_isQuotable (hws v hv)

end Right

/-- One more line fits. -/
theorem fits_cons {l : Line} {ls : List Line} (hright : l.content.IsRight)
    (hcolumn : (!l.content.hasScalar || decide (columnOf ls ≤ l.inner)) = true) (hls : Fits ls) :
    Fits (l :: ls) := by
  refine ⟨hright, fun hscalar => ?_, hls⟩
  simpa [hscalar] using hcolumn

theorem textOf_eq (ls : List Line) : textOf ls = lead (aboveOf ls) (columnOf ls) ++ bodyOf ls := by
  cases ls <;> rfl

/-! ### The lexer without its characters -/

namespace Lexer

/-- A dash opens a list, unless it is open. -/
def dashed (m : Lexer) (column : Nat) : Lexer :=
  (m.openBlock column m.count .blockListStart).push .blockEntry

/-- A key and its colon open a table, unless it is open. -/
def keyed (m : Lexer) (column : Nat) (key : List Char) : Lexer :=
  (((m.push (.scalar (String.ofList key) .plain)).insertAt m.count .key).openBlock column m.count
    .blockTableStart).push .value

/-- A value follows its key. -/
def valued (m : Lexer) : Option Inline → Lexer
  | none => m
  | some v => m.push v.token

/-- All blocks are closed at the end of a text, which is the beginning of a line. -/
def ended (m : Lexer) : Lexer := ((m.closeBlocks 0).closeBlocks (-1)).push .streamEnd

/-- A lexer at some place. -/
def placed (m : Lexer) (c : Cursor) (keyAllowed : Bool) (keyPlace : Option KeyPlace) : Lexer :=
  { m with cursor := c, keyAllowed, keyPlace }

end Lexer

/-- What a line adds. -/
def Line.lex (m : Lexer) (l : Line) : Lexer :=
  match l.content with
  | .item w =>
    ((m.closeBlocks l.column).dashed l.column).push (.scalar (String.ofList w) .plain)
  | .entry dash key value =>
    let m := if dash then (m.closeBlocks l.column).dashed l.column else m.closeBlocks l.column
    (m.keyed l.inner key).valued value

namespace Lexer

section Placed

variable (m : Lexer) (c : Cursor) (a : Bool) (p : Option KeyPlace)

@[simp] theorem cursor_placed : (m.placed c a p).cursor = c := rfl
@[simp] theorem keyAllowed_placed : (m.placed c a p).keyAllowed = a := rfl
@[simp] theorem keyPlace_placed : (m.placed c a p).keyPlace = p := rfl
@[simp] theorem outerPlaces_placed : (m.placed c a p).outerPlaces = m.outerPlaces := rfl
@[simp] theorem indent_placed : (m.placed c a p).indent = m.indent := rfl
@[simp] theorem count_placed : (m.placed c a p).count = m.count := rfl
@[simp] theorem inFlow_placed : (m.placed c a p).inFlow = m.inFlow := rfl
@[simp] theorem push_placed (t : Token) : (m.placed c a p).push t = (m.push t).placed c a p := rfl
@[simp] theorem insertAt_placed (n : Nat) (t : Token) :
    (m.placed c a p).insertAt n t = (m.insertAt n t).placed c a p := rfl

@[simp] theorem openBlock_placed (column number : Nat) (t : Token) :
    (m.placed c a p).openBlock column number t = (m.openBlock column number t).placed c a p := by
  rw [openBlock, openBlock, inFlow_placed, indent_placed]
  split <;> rfl

theorem closeFrom_placed (column : Int) (stack : List Int) :
    closeFrom column (m.placed c a p) stack = (closeFrom column m stack).placed c a p := by
  induction stack generalizing m with
  | nil =>
    rw [closeFrom, closeFrom, indent_placed]
    split <;> rfl
  | cons outer rest ih =>
    rw [closeFrom, closeFrom, indent_placed]
    split
    · exact ih ({ m with indents := rest, indent := outer }.push .blockEnd)
    · rfl

@[simp] theorem closeBlocks_placed (column : Int) :
    (m.placed c a p).closeBlocks column = (m.closeBlocks column).placed c a p := by
  rw [closeBlocks, closeBlocks, inFlow_placed]
  split
  · rfl
  · exact closeFrom_placed m c a p column m.indents

end Placed

section Blocks

variable {m : Lexer}

@[simp] theorem outerPlaces_push (t : Token) : (m.push t).outerPlaces = m.outerPlaces := rfl

@[simp] theorem outerPlaces_openBlock (column number : Nat) (t : Token) :
    (m.openBlock column number t).outerPlaces = m.outerPlaces := by
  rw [openBlock]
  split <;> rfl

theorem outerPlaces_closeFrom (column : Int) (stack : List Int) :
    (closeFrom column m stack).outerPlaces = m.outerPlaces := by
  induction stack generalizing m with
  | nil =>
    rw [closeFrom]
    split <;> rfl
  | cons outer rest ih =>
    rw [closeFrom]
    split
    · exact ih
    · rfl

@[simp] theorem outerPlaces_closeBlocks (column : Int) :
    (m.closeBlocks column).outerPlaces = m.outerPlaces := by
  rw [closeBlocks]
  split
  · rfl
  · exact outerPlaces_closeFrom column m.indents

@[simp] theorem outerPlaces_dashed (column : Nat) : (m.dashed column).outerPlaces = m.outerPlaces :=
  outerPlaces_openBlock _ _ _

@[simp] theorem outerPlaces_keyed (column : Nat) (key : List Char) :
    (m.keyed column key).outerPlaces = m.outerPlaces :=
  outerPlaces_openBlock _ _ _

theorem outerPlaces_lex (l : Line) : (l.lex m).outerPlaces = m.outerPlaces := by
  obtain ⟨above, column, content⟩ := l
  cases content with
  | item w => simp [Line.lex]
  | entry dash key value => cases dash <;> cases value <;> simp [Line.lex, valued]

variable (hflow : m.outerPlaces = [])

include hflow

theorem inFlow_eq_false : m.inFlow = false := by
  rw [inFlow, hflow]
  rfl

/-- Blocks that are not right of a column stay open. -/
theorem closeBlocks_of_le {column : Int} (h : m.indent ≤ column) : m.closeBlocks column = m := by
  rw [closeBlocks, if_neg (by rw [inFlow_eq_false hflow]; exact Bool.false_ne_true)]
  cases m.indents with
  | nil => rw [closeFrom, if_neg (by omega)]
  | cons outer rest => rw [closeFrom, if_neg (by omega)]

/-- **Afterwards no block is right of the column.** -/
theorem indent_closeBlocks_le {column : Int} (h : -1 ≤ column) :
    (m.closeBlocks column).indent ≤ column := by
  rw [closeBlocks, if_neg (by rw [inFlow_eq_false hflow]; exact Bool.false_ne_true)]
  clear hflow
  -- The open blocks are closed from the innermost, as long as they are deeper.
  have hfrom : ∀ (stack : List Int) (m : Lexer), (closeFrom column m stack).indent ≤ column := by
    intro stack
    induction stack with
    | nil =>
      intro m
      rw [closeFrom]
      split
      · exact h
      · omega
    | cons outer rest ih =>
      intro m
      rw [closeFrom]
      split
      · exact ih _
      · omega
  exact hfrom m.indents m

/-- **A block that is opened is the innermost one.** -/
theorem indent_openBlock {column : Nat} (h : m.indent ≤ column) (number : Nat) (t : Token) :
    (m.openBlock column number t).indent = column := by
  rw [openBlock, inFlow_eq_false hflow, Bool.false_or]
  by_cases hle : (column : Int) ≤ m.indent
  · rw [if_pos (decide_eq_true hle)]
    omega
  · rw [if_neg (by simpa using hle)]
    rfl

theorem indent_dashed {column : Nat} (h : m.indent ≤ column) : (m.dashed column).indent = column :=
  indent_openBlock hflow h _ _

theorem indent_keyed {column : Nat} {key : List Char} (h : m.indent ≤ column) :
    (m.keyed column key).indent = column :=
  indent_openBlock (m := (m.push _).insertAt _ _) hflow h _ _

end Blocks

/-! ### Between tokens -/

/-- A text that is at its end or begins with a token. -/
def StartsToken (rest : List Char) : Prop :=
  ∀ x ∈ rest.head?, isSpace x = false ∧ x ≠ '#' ∧ x ≠ '\ufeff'

theorem skipWhile_append {q : Char → Bool} {front rest : List Char}
    (hfront : ∀ x ∈ front, q x = true) (hrest : ∀ x ∈ rest.head?, q x = false)
    (size i l col : Nat) :
    Cursor.skipWhile q ⟨front ++ rest, size, i, l, col⟩ =
      ⟨rest, size, i + Cursor.bytes front, l, col + front.length⟩ := by
  -- generalized over the place, for the induction
  have hfrom : ∀ (front : List Char) (i col : Nat), (∀ x ∈ front, q x = true) →
      Cursor.skipFrom q size l (front ++ rest) i col =
        ⟨rest, size, i + Cursor.bytes front, l, col + front.length⟩ := by
    intro front
    induction front with
    | nil =>
      intro i col _
      cases rest with
      | nil => rfl
      | cons x rest =>
        rw [List.nil_append, Cursor.skipFrom, hrest x rfl]
        rfl
    | cons c cs ih =>
      intro i col hfront
      obtain ⟨hc, hcs⟩ := List.forall_mem_cons.mp hfront
      rw [List.cons_append, Cursor.skipFrom, hc, if_pos rfl, ih _ _ hcs, Cursor.bytes,
        List.length_cons]
      congr 1 <;> omega
  exact hfrom front i col hfront

section Skip

variable {rest : List Char} (hrest : StartsToken rest) (m : Lexer) (size i l col : Nat) (a : Bool)
  (p : Option KeyPlace)

include hrest

/-- Blanks before a token are passed over. -/
theorem skipToToken_blanks (n fuel : Nat) :
    skipToToken (fuel + 1) (m.placed ⟨List.replicate n ' ' ++ rest, size, i, l, col⟩ a p) =
      m.placed ⟨rest, size, i + n, l, col + n⟩ a p := by
  -- no mark and no comment begins here
  have hmark : (List.replicate n ' ' ++ rest).head? ≠ some '\ufeff' := by
    intro h
    cases n with
    | zero => exact (hrest _ h).2.2 rfl
    | succ n => exact absurd (Option.some.inj h) (by decide)
  have hhash : rest.head? ≠ some '#' := fun h => (hrest _ h).2.1 rfl
  -- the blanks are skipped, and nothing behind them
  have hgap : ∀ x ∈ rest.head?,
      (decide (x = ' ') || ((m.inFlow || !a) && decide (x = '\t'))) = false := by
    intro x hx
    obtain ⟨hspace, -⟩ := hrest x hx
    rw [isSpace, isGap, Bool.or_eq_false_iff, Bool.or_eq_false_iff] at hspace
    rw [hspace.1.1, hspace.1.2]
    simp
  have hfront : ∀ x ∈ List.replicate n ' ',
      (decide (x = ' ') || ((m.inFlow || !a) && decide (x = '\t'))) = true := by
    intro x hx
    rw [List.eq_of_mem_replicate hx]
    rfl
  have hskip := skipWhile_append hfront hgap size i l col
  rw [bytes_blanks, List.length_replicate] at hskip
  rw [skipToToken]
  simp only [cursor_placed, keyAllowed_placed, inFlow_placed, hmark, hskip, hhash, decide_false,
    Bool.and_false, Bool.false_eq_true, if_false]
  -- what follows is no line break either
  cases rest with
  | nil => rfl
  | cons x rest =>
    obtain ⟨hspace, -⟩ := hrest x rfl
    rw [isSpace, Bool.or_eq_false_iff] at hspace
    simp only [hspace.2, Bool.false_eq_true, if_false]
    rfl

theorem skipToToken_token (fuel : Nat) :
    skipToToken (fuel + 1) (m.placed ⟨rest, size, i, l, col⟩ a p) =
      m.placed ⟨rest, size, i, l, col⟩ a p :=
  skipToToken_blanks hrest m size i l col a p 0 fuel

end Skip

theorem skipToToken_break {m : Lexer} (hflow : m.outerPlaces = []) (rest : List Char)
    (size i l col : Nat) (a : Bool) (p : Option KeyPlace) (fuel : Nat) :
    skipToToken (fuel + 1) (m.placed ⟨'\n' :: rest, size, i, l, col⟩ a p) =
      skipToToken fuel (m.placed ⟨rest, size, i + 1, l + 1, 0⟩ true p) := by
  have hmark : (some '\n' : Option Char) ≠ some '\ufeff' := by decide
  have hskip : Cursor.skipWhile
      (fun x => decide (x = ' ') || ((false || !a) && decide (x = '\t')))
      ⟨'\n' :: rest, size, i, l, col⟩ = ⟨'\n' :: rest, size, i, l, col⟩ :=
    skipWhile_append (List.forall_mem_nil _) (fun x hx => by rw [← Option.some.inj hx]; simp)
      size i l col
  have hhash : (some '\n' : Option Char) ≠ some '#' := by decide
  have hbreak : isBreak '\n' = true := by decide
  rw [skipToToken]
  simp only [cursor_placed, keyAllowed_placed, inFlow_placed, List.head?_cons, hmark, hskip, hhash,
    hbreak, inFlow_eq_false hflow, decide_false, Bool.and_false, Bool.false_eq_true, if_false,
    if_true]
  rfl

/-- **At the end of a line the lexer goes on to the next one**, on which a key may begin. -/
theorem skipToToken_line {m : Lexer} (hflow : m.outerPlaces = []) {rest : List Char}
    (hrest : StartsToken rest) (size i l col : Nat) (a : Bool) (p : Option KeyPlace)
    {above fuel : Nat} (column : Nat) (hfuel : above < fuel) :
    ∃ i', skipToToken (fuel + 1)
        (m.placed ⟨'\n' :: (lead above column ++ rest), size, i, l, col⟩ a p) =
      m.placed ⟨rest, size, i', l + 1 + above, column⟩ true p := by
  -- One break after another, and blanks at the last of them.
  induction above generalizing i l col a fuel with
  | zero =>
    obtain ⟨fuel, rfl⟩ : ∃ n, fuel = n + 1 := Nat.exists_eq_add_of_le' hfuel
    refine ⟨i + 1 + column, ?_⟩
    rw [skipToToken_break hflow, lead, List.replicate_zero, List.nil_append,
      skipToToken_blanks hrest]
    simp
  | succ above ih =>
    obtain ⟨fuel, rfl⟩ : ∃ n, fuel = n + 1 := Nat.exists_eq_add_of_le' (by omega)
    obtain ⟨i', hskip⟩ := ih (i + 1) (l + 1) 0 true (show above < fuel by omega)
    refine ⟨i', ?_⟩
    rw [skipToToken_break hflow]
    change skipToToken (fuel + 1)
      (m.placed ⟨'\n' :: (lead above column ++ rest), size, i + 1, l + 1, 0⟩ true p) = _
    rw [hskip]
    congr 2
    omega

/-! ### Steps -/

/-- Only the current place is looked at outside of flow collections. -/
theorem dropStale_placed {m : Lexer} {c : Cursor} {a : Bool} {p p' : Option KeyPlace}
    (hflow : m.outerPlaces = []) (hplace : refresh c p = .ok p') :
    (m.placed c a p).dropStale = .ok (m.placed c a p') := by
  rw [dropStale, outerPlaces_placed, hflow]
  simp only [List.mapM_nil, hplace, bind, Except.bind, pure, Except.pure, placed, hflow]

/-- One step of a run. -/
theorem run_succ {s m : Lexer} {c : Cursor} {a : Bool} {p p' : Option KeyPlace} {x : Char}
    {rest : List Char} (fuel : Nat) (hflow : m.outerPlaces = [])
    (hskip : skipToToken (s.cursor.size + 1) s = m.placed c a p) (hplace : refresh c p = .ok p')
    (hrest : c.rest = x :: rest) :
    run (fuel + 1) s = ((m.closeBlocks c.column).placed c a p').token x rest >>= run fuel := by
  rw [run, hskip]
  simp only [dropStale_placed hflow hplace, bind, Except.bind, cursor_placed, closeBlocks_placed,
    hrest]

/-- At the end of a text. -/
theorem run_nil {s m : Lexer} {c : Cursor} {a : Bool} {p : Option KeyPlace} (fuel : Nat)
    (hflow : m.outerPlaces = []) (hskip : skipToToken (s.cursor.size + 1) s = m.placed c a p)
    (hplace : refresh c p = .ok none) (hrest : c.rest = []) :
    run (fuel + 1) s =
      .ok ((((m.closeBlocks c.column).closeBlocks (-1)).push .streamEnd).placed c a none) := by
  rw [run, hskip]
  simp only [dropStale_placed hflow hplace, bind, Except.bind, cursor_placed, closeBlocks_placed,
    hrest]
  rw [finish, closeBlocks_placed]
  rfl

theorem isIndicator_eq_false {x : Char} (hx : x.isAlphanum = true) : isIndicator x = false := by
  have hspace : isSpace x = false := isSpace_of_isPlainChar (by simp [isPlainChar, hx])
  have hmarks : ∀ d ∈ "-?:,[]\x7b\x7d#&*!|>'\"%@`".toList, d.isAlphanum = false := by
    simp
  rw [isIndicator, hspace, Bool.false_or, ← Bool.not_eq_true, List.contains_iff_mem]
  intro hmem
  rw [hmarks x hmem] at hx
  cases hx

/-- A letter or a digit begins a plain scalar. -/
theorem token_plain (m : Lexer) {x : Char} (hx : x.isAlphanum = true) (r : List Char)
    (size i l col : Nat) (a : Bool) (p : Option KeyPlace) :
    (m.placed ⟨x :: r, size, i, l, col⟩ a p).token x r =
      (m.placed ⟨x :: r, size, i, l, col⟩ a p).plainScalar := by
  have hne : ∀ d : Char, d.isAlphanum = false → x ≠ d := ne_of_isAlphanum hx
  rw [token]
  simp only [cursor_placed, atMarker_eq_false (hne '-' (by decide)),
    atMarker_eq_false (hne '.' (by decide)), hne '%' (by decide), hne '[' (by decide),
    hne ']' (by decide), hne '\x7b' (by decide), hne '\x7d' (by decide), hne ',' (by decide),
    hne '-' (by decide), hne '?' (by decide), hne ':' (by decide), hne '*' (by decide),
    hne '&' (by decide), hne '!' (by decide), hne '|' (by decide), hne '>' (by decide),
    hne '\'' (by decide), hne '"' (by decide), isIndicator_eq_false hx, decide_false,
    Bool.and_false, Bool.false_and, Bool.or_false, Bool.not_false, Bool.false_eq_true, if_false, if_true]

theorem token_dash {m : Lexer} (hflow : m.outerPlaces = []) (rest : List Char)
    (size i l col : Nat) :
    (m.placed ⟨'-' :: ' ' :: rest, size, i, l, col⟩ true none).token '-' (' ' :: rest) =
      .ok ((m.dashed col).placed ⟨' ' :: rest, size, i + 1, l, col + 1⟩ true none) := by
  -- A dash with a blank behind it opens an entry and is no marker.
  have hmarker : Cursor.atMarker ⟨'-' :: ' ' :: rest, size, i, l, col⟩ '-' = false := by
    unfold Cursor.atMarker
    cases rest <;> simp
  have halone : endsWord (' ' :: rest) = true := rfl
  rw [token]
  have hpercent : ¬ '-' = '%' := by decide
  have hopen : ¬ '-' = '[' ∧ ¬ '-' = '\x7b' ∧ ¬ '-' = ']' ∧ ¬ '-' = '\x7d' ∧ ¬ '-' = ',' := by
    decide
  simp only [cursor_placed, keyAllowed_placed, keyPlace_placed, inFlow_placed, count_placed,
    openBlock_placed, hmarker, atMarker_eq_false (show '-' ≠ '.' by decide), halone, hpercent,
    hopen, blockEntry, dropKey, giveUp, inFlow_eq_false hflow, decide_false, decide_true, Bool.and_false,
    Bool.and_true, Bool.not_true, Bool.false_eq_true, if_false, if_true, bind, Except.bind, pure,
    Except.pure]
  rfl

theorem token_colon (m : Lexer) {rest : List Char} (halone : endsWord rest = true)
    (size i l col : Nat) (a : Bool) (k : KeyPlace) :
    (m.placed ⟨':' :: rest, size, i, l, col⟩ a (some k)).token ':' rest =
      .ok ((((m.insertAt k.number .key).openBlock k.column k.number .blockTableStart).push
        .value).placed ⟨rest, size, i + 1, l, col + 1⟩ false none) := by
  have hother : ¬ ':' = '%' ∧ ¬ ':' = '[' ∧ ¬ ':' = '\x7b' ∧ ¬ ':' = ']' ∧ ¬ ':' = '\x7d' ∧
      ¬ ':' = ',' ∧ ¬ ':' = '-' ∧ ¬ ':' = '?' := by decide
  rw [token]
  simp only [cursor_placed, keyPlace_placed, insertAt_placed, openBlock_placed, hother, halone,
    atMarker_eq_false (show ':' ≠ '-' by decide), atMarker_eq_false (show ':' ≠ '.' by decide),
    colon, decide_false, decide_true, Bool.and_false, Bool.false_and, Bool.or_true, Bool.and_true,
    Bool.false_eq_true, if_false, if_true, pure, Except.pure]
  rfl

theorem token_quote (m : Lexer) (rest : List Char) (size i l col : Nat) (a : Bool)
    (p : Option KeyPlace) :
    (m.placed ⟨'"' :: rest, size, i, l, col⟩ a p).token '"' rest =
      (m.placed ⟨'"' :: rest, size, i, l, col⟩ a p).quotedScalar '"' := by
  have hother : ¬ '"' = '%' ∧ ¬ '"' = '[' ∧ ¬ '"' = '\x7b' ∧ ¬ '"' = ']' ∧ ¬ '"' = '\x7d' ∧
      ¬ '"' = ',' ∧ ¬ '"' = '-' ∧ ¬ '"' = '?' ∧ ¬ '"' = ':' ∧ ¬ '"' = '*' ∧ ¬ '"' = '&' ∧
      ¬ '"' = '!' ∧ ¬ '"' = '|' ∧ ¬ '"' = '>' := by decide
  rw [token]
  simp only [cursor_placed, hother, atMarker_eq_false (show '"' ≠ '-' by decide),
    atMarker_eq_false (show '"' ≠ '.' by decide), decide_false, decide_true, Bool.and_false,
    Bool.false_and, Bool.or_true, Bool.false_eq_true, if_false, if_true]

section Scalar

variable {m : Lexer} (hflow : m.outerPlaces = []) {c c' : Cursor} {t : String} {broken : Bool}
  (h : readPlain false (m.indent + 1).toNat c = .ok (t, broken, c'))

include hflow h

/-- A plain scalar that may be a key. -/
theorem plainScalar_key :
    (m.placed c true none).plainScalar =
      .ok ((m.push (.scalar t .plain)).placed c' broken
        (some ⟨!m.inFlow && decide (m.indent = c.column), m.count, c.index, c.line, c.column⟩)) := by
  have hsave : (m.placed c true none).saveKey = .ok (m.placed c true
      (some ⟨!m.inFlow && decide (m.indent = c.column), m.count, c.index, c.line, c.column⟩)) := rfl
  rw [plainScalar, hsave]
  simp only [bind, Except.bind, inFlow_placed, indent_placed, cursor_placed, inFlow_eq_false hflow,
    h]
  rfl

/-- A plain scalar that cannot be a key. -/
theorem plainScalar_value (p : Option KeyPlace) :
    (m.placed c false p).plainScalar = .ok ((m.push (.scalar t .plain)).placed c' broken p) := by
  have hsave : (m.placed c false p).saveKey = .ok (m.placed c false p) := rfl
  rw [plainScalar, hsave]
  simp only [bind, Except.bind, inFlow_placed, indent_placed, cursor_placed, inFlow_eq_false hflow,
    h]
  rfl

end Scalar

/-! ### Tokens of a line -/

section Steps

variable {s m : Lexer} (fuel : Nat) (hflow : m.outerPlaces = [])

include hflow

/-- **A dash.** -/
theorem run_dash {rest : List Char} {size i l col : Nat} {p : Option KeyPlace}
    (hskip : skipToToken (s.cursor.size + 1) s =
      m.placed ⟨'-' :: ' ' :: rest, size, i, l, col⟩ true p)
    (hplace : refresh ⟨'-' :: ' ' :: rest, size, i, l, col⟩ p = .ok none) :
    run (fuel + 1) s =
      run fuel (((m.closeBlocks col).dashed col).placed
        ⟨' ' :: rest, size, i + 1, l, col + 1⟩ true none) := by
  have hflow' : (m.closeBlocks col).outerPlaces = [] := by rw [outerPlaces_closeBlocks, hflow]
  rw [run_succ fuel hflow hskip hplace rfl, token_dash hflow']
  rfl

/-- **A key and its colon.** -/
theorem run_key {key rest : List Char} {size i l col : Nat} {p : Option KeyPlace}
    (hskip : skipToToken (s.cursor.size + 1) s =
      m.placed ⟨key ++ ':' :: rest, size, i, l, col⟩ true p)
    (hplace : refresh ⟨key ++ ':' :: rest, size, i, l, col⟩ p = .ok none)
    (hkey : IsPlainWord key) (hbytes : Cursor.bytes key ≤ 1024) (hrest : endsWord rest = true)
    (hsize : key.length ≤ size) :
    ∃ i', run (fuel + 2) s =
      run fuel (((m.closeBlocks col).keyed col key).placed
        ⟨rest, size, i', l, col + key.length + 1⟩ false none) := by
  have hflow' : (m.closeBlocks col).outerPlaces = [] := by rw [outerPlaces_closeBlocks, hflow]
  have hindent := indent_closeBlocks_le hflow (show -1 ≤ (col : Int) by omega)
  obtain ⟨x, cs, hcs, hx⟩ := hkey.start
  have hcons : key ++ ':' :: rest = x :: (cs ++ ':' :: rest) := by rw [hcs, List.cons_append]
  rw [run_succ (fuel + 1) hflow hskip hplace hcons]
  generalize m.closeBlocks col = m' at hflow' hindent ⊢
  rw [hcons, token_plain m' hx, ← hcons,
    plainScalar_key hflow' (readPlain_key hkey _ size i l col hrest hsize)]
  -- the colon finds the place where the key began
  have hcolon : StartsToken (':' :: rest) := by
    intro y hy
    rw [← Option.some.inj hy]
    decide
  have hfresh : isStale ⟨':' :: rest, size, i + Cursor.bytes key, l, col + key.length⟩
      ⟨!m'.inFlow && decide (m'.indent = col), m'.count, i, l, col⟩ = false := by
    simp only [isStale, Bool.or_eq_false_iff, decide_eq_false_iff_not]
    omega
  have hplace' : refresh ⟨':' :: rest, size, i + Cursor.bytes key, l, col + key.length⟩
      (some ⟨!m'.inFlow && decide (m'.indent = col), m'.count, i, l, col⟩) =
        .ok (some ⟨!m'.inFlow && decide (m'.indent = col), m'.count, i, l, col⟩) := by
    rw [refresh, hfresh]
    rfl
  refine ⟨i + Cursor.bytes key + 1, ?_⟩
  refine (run_succ fuel (m := m'.push _) hflow' (skipToToken_token hcolon _ size _ l _ false _ size)
    hplace' rfl).trans ?_
  rw [closeBlocks_of_le (m := m'.push _) hflow' (by change m'.indent ≤ _; push_cast; omega),
    token_colon _ hrest]
  rfl

/-- **A plain scalar at the end of a line**, after which the lexer is on the next line. What is
noted as the place of a key is given up there. -/
theorem run_plain {w rest : List Char} {size i l col above column : Nat} {a : Bool}
    {p : Option KeyPlace}
    (hskip : skipToToken (s.cursor.size + 1) s =
      m.placed ⟨w ++ '\n' :: (lead above column ++ rest), size, i, l, col⟩ a p)
    (hplace : refresh ⟨w ++ '\n' :: (lead above column ++ rest), size, i, l, col⟩ p = .ok none)
    (hw : IsPlainWord w) (hrest : StartsWord rest) (hnext : (column : Int) ≤ m.indent)
    (hindent : m.indent ≤ col) (hkey : a = true → m.indent ≠ col)
    (hsize : w.length + above + column < size) :
    ∃ i' p', run (fuel + 1) s =
        run fuel ((m.push (.scalar (String.ofList w) .plain)).placed
          ⟨rest, size, i', l + 1 + above, column⟩ true p') ∧
      refresh ⟨rest, size, i', l + 1 + above, column⟩ p' = .ok none := by
  obtain ⟨x, cs, hcs, hx⟩ := hw.start
  have hcons : w ++ '\n' :: (lead above column ++ rest) =
      x :: (cs ++ '\n' :: (lead above column ++ rest)) := by rw [hcs, List.cons_append]
  obtain ⟨i', hread⟩ := readPlain_line hw (m.indent + 1).toNat size i l col hrest
    (show column < (m.indent + 1).toNat by omega) hsize
  have hstep := run_succ fuel hflow hskip hplace hcons
  rw [closeBlocks_of_le hflow hindent, hcons, token_plain m hx, ← hcons] at hstep
  rw [hstep]
  -- where a key may stand its place is noted, and it is stale on the next line
  cases a with
  | false =>
    rw [plainScalar_value hflow hread]
    exact ⟨i', none, rfl, rfl⟩
  | true =>
    rw [plainScalar_key hflow hread]
    refine ⟨i', _, rfl, ?_⟩
    have hstale : isStale ⟨rest, size, i', l + 1 + above, column⟩
        ⟨!m.inFlow && decide (m.indent = col), m.count, i, l, col⟩ = true := by
      simp only [isStale, Bool.or_eq_true, decide_eq_true_eq]
      omega
    rw [refresh, hstale, giveUp, decide_eq_false (hkey rfl), Bool.and_false]
    rfl

/-- **A quoted text.** -/
theorem run_quoted {w rest : List Char} {ws : List (List Char)} {size i l col : Nat}
    {p : Option KeyPlace}
    (hskip : skipToToken (s.cursor.size + 1) s =
      m.placed ⟨'"' :: (spaced (w :: ws) ++ '"' :: rest), size, i, l, col⟩ false p)
    (hplace : refresh ⟨'"' :: (spaced (w :: ws) ++ '"' :: rest), size, i, l, col⟩ p = .ok none)
    (hwords : ∀ v ∈ w :: ws, IsQuotedWord v ∧ v.length ≤ size) (hsize : ws.length ≤ size)
    (hindent : m.indent ≤ col) :
    ∃ i' col', run (fuel + 1) s =
      run fuel ((m.push (.scalar (String.ofList (spaced (w :: ws))) .explicit)).placed
        ⟨rest, size, i', l, col'⟩ false none) := by
  obtain ⟨i', col', hread⟩ := readQuoted_words rest size i l col hwords hsize
  refine ⟨i', col', ?_⟩
  rw [run_succ fuel hflow hskip hplace rfl, closeBlocks_of_le hflow hindent, token_quote]
  have hsave : (m.placed ⟨'"' :: (spaced (w :: ws) ++ '"' :: rest), size, i, l, col⟩ false
      none).saveKey = .ok (m.placed ⟨'"' :: (spaced (w :: ws) ++ '"' :: rest), size, i, l, col⟩ false
      none) := rfl
  rw [quotedScalar, hsave]
  simp only [bind, Except.bind, cursor_placed, hread]
  rfl

end Steps

/-! ### Lines -/

/-- **Between two lines**: nothing but empty lines and an indentation is left before the next one,
and a key may begin there. -/
def Ready (size : Nat) (m : Lexer) (ls : List Line) (s : Lexer) : Prop :=
  s.cursor.size = size ∧ ∃ i l p,
    skipToToken (size + 1) s = m.placed ⟨bodyOf ls, size, i, l, columnOf ls⟩ true p ∧
      refresh ⟨bodyOf ls, size, i, l, columnOf ls⟩ p = .ok none

theorem startsToken_word {w : List Char} (hw : IsPlainWord w) (rest : List Char) :
    StartsToken (w ++ rest) := by
  obtain ⟨x, cs, rfl, hx⟩ := hw.start
  intro y hy
  obtain rfl : x = y := Option.some.inj hy
  exact ⟨hw.startsWord [] x rfl, ne_of_isAlphanum hx '#' (by decide),
    ne_of_isAlphanum hx '\ufeff' (by decide)⟩

theorem startsToken_bodyOf {ls : List Line} (h : Fits ls) : StartsToken (bodyOf ls) := by
  -- A line begins with a dash or with the word of its key.
  have hdash : ∀ rest, StartsToken ('-' :: rest) := by
    intro rest y hy
    rw [← Option.some.inj hy]
    decide
  cases ls with
  | nil => exact fun x hx => absurd hx nofun
  | cons l ls =>
    obtain ⟨above, column, content⟩ := l
    obtain ⟨hright, -, -⟩ := h
    cases content with
    | item w => exact hdash _
    | entry dash key value =>
      cases dash with
      | true => exact hdash _
      | false =>
        rw [bodyOf, Content.text, List.append_assoc]
        exact startsToken_word hright.1 _

section Ready

variable {m : Lexer} {ls : List Line} (hfits : Fits ls) {size i l col : Nat}

include hfits

/-- At the end of a line. -/
theorem ready_of_line (hflow : m.outerPlaces = []) (hsize : (textOf ls).length < size) (a : Bool) :
    Ready size m ls (m.placed ⟨'\n' :: textOf ls, size, i, l, col⟩ a none) := by
  rw [textOf_eq, lead, List.length_append, List.length_append, List.length_replicate,
    List.length_replicate] at hsize
  obtain ⟨i', hskip⟩ := skipToToken_line hflow (startsToken_bodyOf hfits) size i l col a none
    (columnOf ls) (show aboveOf ls < size by omega)
  refine ⟨rfl, i', l + 1 + aboveOf ls, none, ?_, rfl⟩
  rw [textOf_eq]
  exact hskip

/-- Where the next line begins. -/
theorem ready_of_body {p : Option KeyPlace}
    (hplace : refresh ⟨bodyOf ls, size, i, l, columnOf ls⟩ p = .ok none) :
    Ready size m ls (m.placed ⟨bodyOf ls, size, i, l, columnOf ls⟩ true p) :=
  ⟨rfl, i, l, p, skipToToken_token (startsToken_bodyOf hfits) m size i l _ true p size, hplace⟩

end Ready

/-- **An entry**, from the place where its key begins. -/
theorem run_entry {s m : Lexer} {key : List Char} {value : Option Inline} {ls : List Line}
    {size i l col fuel : Nat} {p : Option KeyPlace} (hflow : m.outerPlaces = [])
    (hskip : skipToToken (s.cursor.size + 1) s =
      m.placed ⟨key ++ ':' :: (Content.valueText value ++ '\n' :: textOf ls), size, i, l, col⟩ true p)
    (hplace : refresh ⟨key ++ ':' :: (Content.valueText value ++ '\n' :: textOf ls), size, i, l, col⟩
      p = .ok none)
    (hkey : IsPlainWord key) (hbytes : Cursor.bytes key ≤ 1024) (hvalue : ∀ v ∈ value, v.IsRight)
    (hnext : value.isSome = true → columnOf ls ≤ col) (hfits : Fits ls)
    (hsize : (key ++ ':' :: (Content.valueText value ++ '\n' :: textOf ls)).length ≤ size)
    (hfuel : (key ++ ':' :: (Content.valueText value ++ '\n' :: textOf ls)).length < fuel) :
    ∃ fuel' s', (bodyOf ls).length < fuel' ∧ run fuel s = run fuel' s' ∧
      Ready size (((m.closeBlocks col).keyed col key).valued value) ls s' := by
  have hbody : (textOf ls).length = aboveOf ls + columnOf ls + (bodyOf ls).length := by
    rw [textOf_eq, lead, List.length_append, List.length_append, List.length_replicate,
      List.length_replicate]
  have hpos : 0 < key.length := by
    obtain ⟨x, cs, rfl, -⟩ := hkey.start
    exact Nat.succ_pos _
  simp only [List.length_append, List.length_cons] at hsize hfuel
  -- the key and its colon are two steps
  obtain ⟨fuel, rfl⟩ : ∃ n, fuel = n + 2 := Nat.exists_eq_add_of_le' (by omega)
  have hflow' : ((m.closeBlocks col).keyed col key).outerPlaces = [] := by
    rw [outerPlaces_keyed, outerPlaces_closeBlocks, hflow]
  have hindent : ((m.closeBlocks col).keyed col key).indent = col :=
    indent_keyed (by rw [outerPlaces_closeBlocks, hflow]) (indent_closeBlocks_le hflow (by omega))
  have hword : endsWord (Content.valueText value ++ '\n' :: textOf ls) = true := by
    cases value <;> rfl
  obtain ⟨i₁, hrun⟩ := run_key fuel hflow hskip hplace hkey hbytes hword (by omega)
  rw [hrun]
  -- of this lexer only the block that it is in matters from here on
  generalize (m.closeBlocks col).keyed col key = m' at hflow' hindent ⊢
  cases value with
  | none =>
    -- behind the colon the line ends
    exact ⟨fuel, _, by omega, rfl, ready_of_line hfits hflow' (by omega) false⟩
  | some v =>
    have hv := hvalue v rfl
    have hnext := hnext rfl
    rw [Content.valueText, List.length_cons] at hsize hfuel
    obtain ⟨fuel, rfl⟩ : ∃ n, fuel = n + 1 := Nat.exists_eq_add_of_le' (by omega)
    cases v with
    | plain w =>
      -- a plain word is read beyond the end of its line, up to the next one
      have hlength : w.length + 1 + (textOf ls).length ≤ size ∧
          w.length + 1 + (textOf ls).length < fuel := by
        simp only [Inline.text] at hsize hfuel
        omega
      have hblank := skipToToken_blanks (startsToken_word hv ('\n' :: textOf ls)) m' size i₁ l
        (col + key.length + 1) false none 1 size
      rw [textOf_eq] at hblank ⊢
      obtain ⟨i₂, p', hrun', hplace'⟩ := run_plain fuel hflow' hblank rfl hv
        (fun x hx => (startsToken_bodyOf hfits x hx).1) (by omega) (by omega) (by simp) (by omega)
      exact ⟨fuel, _, by omega, hrun', ready_of_body hfits hplace'⟩
    | quoted w ws =>
      -- a text in quotes ends with them, so the lexer is still on the line
      have htext : Content.valueText (some (.quoted w ws)) ++ '\n' :: textOf ls =
          ' ' :: ('"' :: (spaced (w :: ws) ++ '"' :: '\n' :: textOf ls)) := by
        simp [Content.valueText, Inline.text]
      have hlength : (spaced (w :: ws)).length + 3 + (textOf ls).length ≤ size ∧
          (spaced (w :: ws)).length + 3 + (textOf ls).length < fuel := by
        simp only [Inline.text, List.length_cons, List.length_append,
          List.length_nil] at hsize hfuel
        omega
      have hquote : StartsToken ('"' :: (spaced (w :: ws) ++ '"' :: '\n' :: textOf ls)) := by
        intro x hx
        rw [← Option.some.inj hx]
        decide
      have hblank := skipToToken_blanks hquote m' size i₁ l (col + key.length + 1) false none 1 size
      obtain ⟨i₂, col', hrun'⟩ := run_quoted fuel hflow' hblank rfl
        (fun u hu => ⟨hv u hu, (length_le_spaced hu).trans (by omega)⟩)
        ((length_words_le_spaced w ws).trans (by omega)) (by omega)
      rw [htext]
      exact ⟨fuel, _, by omega, hrun',
        ready_of_line (m := m'.push _) hfits hflow' (show _ < size by omega) false⟩

/-- **A line leads from one state between lines to the next.** -/
theorem run_line {s m : Lexer} {line : Line} {ls : List Line} {size fuel : Nat}
    (hfits : Fits (line :: ls)) (hflow : m.outerPlaces = []) (hready : Ready size m (line :: ls) s)
    (hsize : (bodyOf (line :: ls)).length ≤ size) (hfuel : (bodyOf (line :: ls)).length < fuel) :
    ∃ fuel' s', (bodyOf ls).length < fuel' ∧ run fuel s = run fuel' s' ∧
      Ready size (line.lex m) ls s' := by
  obtain ⟨above, column, content⟩ := line
  obtain ⟨hright, hnext, hlater⟩ := hfits
  obtain ⟨rfl, i, l, p, hskip, hplace⟩ := hready
  -- the lexer behind a dash, if there is one
  have hflow' : ((m.closeBlocks column).dashed column).outerPlaces = [] := by
    rw [outerPlaces_dashed, outerPlaces_closeBlocks, hflow]
  have hindent : ((m.closeBlocks column).dashed column).indent = column :=
    indent_dashed (by rw [outerPlaces_closeBlocks, hflow]) (indent_closeBlocks_le hflow (by omega))
  cases content with
  | item w =>
    have htext : bodyOf (⟨above, column, .item w⟩ :: ls) =
        '-' :: ' ' :: (w ++ '\n' :: textOf ls) := rfl
    rw [htext] at hskip hplace hsize hfuel
    have hbody : (textOf ls).length = aboveOf ls + columnOf ls + (bodyOf ls).length := by
      rw [textOf_eq, lead, List.length_append, List.length_append, List.length_replicate,
        List.length_replicate]
    simp only [List.length_append, List.length_cons] at hsize hfuel
    -- one step for the dash and one for the word
    obtain ⟨fuel, rfl⟩ : ∃ n, fuel = n + 2 := Nat.exists_eq_add_of_le' (by omega)
    have hblank := skipToToken_blanks (startsToken_word hright ('\n' :: textOf ls))
      ((m.closeBlocks column).dashed column) s.cursor.size (i + 1) l (column + 1) true none 1
      s.cursor.size
    rw [run_dash (fuel + 1) hflow hskip hplace]
    have hnext : columnOf ls ≤ column := hnext rfl
    rw [textOf_eq] at hblank ⊢
    obtain ⟨i', p', hrun, hplace'⟩ := run_plain fuel hflow' hblank rfl hright
      (fun x hx => (startsToken_bodyOf hlater x hx).1) (by omega) (by omega)
      (fun _ => by rw [hindent]; push_cast; omega) (by omega)
    exact ⟨fuel, _, by omega, hrun, ready_of_body hlater hplace'⟩
  | entry dash key value =>
    obtain ⟨hkey, hbytes, hvalue⟩ := hright
    cases dash with
    | false =>
      -- without a dash the line is an entry
      have htext : bodyOf (⟨above, column, .entry false key value⟩ :: ls) =
          key ++ ':' :: (Content.valueText value ++ '\n' :: textOf ls) := by
        simp [bodyOf, Content.text]
      rw [htext] at hskip hplace hsize hfuel
      exact run_entry hflow hskip hplace hkey hbytes hvalue hnext hlater hsize hfuel
    | true =>
      have htext : bodyOf (⟨above, column, .entry true key value⟩ :: ls) =
          '-' :: ' ' :: (key ++ ':' :: (Content.valueText value ++ '\n' :: textOf ls)) := by
        simp [bodyOf, Content.text]
      rw [htext] at hskip hplace hsize hfuel
      simp only [List.length_cons] at hsize hfuel
      obtain ⟨fuel, rfl⟩ : ∃ n, fuel = n + 1 := Nat.exists_eq_add_of_le' (by omega)
      have hblank := skipToToken_blanks
        (startsToken_word hkey (':' :: (Content.valueText value ++ '\n' :: textOf ls)))
        ((m.closeBlocks column).dashed column) s.cursor.size (i + 1) l (column + 1) true none 1
        s.cursor.size
      rw [run_dash fuel hflow hskip hplace]
      -- the key is to the right of the dash, so it closes no block
      have hentry := run_entry hflow' hblank rfl hkey hbytes hvalue hnext hlater (by omega)
        (show _ < fuel by omega)
      rwa [closeBlocks_of_le hflow' (by rw [hindent]; push_cast; omega)] at hentry

/-- **All lines.** -/
theorem run_lines {s m : Lexer} {ls : List Line} {size fuel : Nat} (hfits : Fits ls)
    (hflow : m.outerPlaces = []) (hready : Ready size m ls s) (hsize : (textOf ls).length ≤ size)
    (hfuel : (bodyOf ls).length < fuel) :
    (run fuel s).map (·.tokens) = .ok (ls.foldl Line.lex m).ended.tokens := by
  -- the fuel covers the characters that are left, line by line
  induction ls generalizing s m fuel with
  | nil =>
    obtain ⟨fuel, rfl⟩ : ∃ n, fuel = n + 1 := Nat.exists_eq_add_of_le' hfuel
    obtain ⟨rfl, i, l, p, hskip, hplace⟩ := hready
    rw [run_nil fuel hflow hskip hplace rfl]
    rfl
  | cons line ls ih =>
    have hbody : (textOf (line :: ls)).length =
        line.above + line.column + (bodyOf (line :: ls)).length := by
      rw [textOf_eq, lead, List.length_append, List.length_append, List.length_replicate,
        List.length_replicate]
      rfl
    have hrest : (bodyOf (line :: ls)).length =
        line.content.text.length + 1 + (textOf ls).length := by
      rw [bodyOf, List.length_append, List.length_cons]
      omega
    obtain ⟨fuel', s', hfuel', hrun, hready'⟩ := run_line hfits hflow hready (by omega) hfuel
    rw [hrun, List.foldl_cons]
    exact ih hfits.2.2 (by rw [outerPlaces_lex, hflow]) hready' (by omega) hfuel'

/-- At the beginning of a text. -/
theorem ready_of_start {m : Lexer} {ls : List Line} (hfits : Fits ls) (hflow : m.outerPlaces = [])
    {size : Nat} (hsize : (textOf ls).length ≤ size) :
    Ready size m ls (m.placed ⟨textOf ls, size, 0, 0, 0⟩ true none) := by
  have hstarts := startsToken_bodyOf hfits
  rw [textOf_eq, lead, List.length_append, List.length_append, List.length_replicate,
    List.length_replicate] at hsize
  rw [textOf_eq]
  -- The text may begin with empty lines, which are skipped like those between the lines.
  cases habove : aboveOf ls with
  | zero =>
    refine ⟨rfl, 0 + columnOf ls, 0, none, ?_, rfl⟩
    have hskip := skipToToken_blanks hstarts m size 0 0 0 true none (columnOf ls) size
    rwa [Nat.zero_add (columnOf ls)] at hskip ⊢
  | succ above =>
    obtain ⟨i, hskip⟩ := skipToToken_line hflow hstarts size 0 0 0 true none (columnOf ls)
      (show above < size by omega)
    exact ⟨rfl, i, 0 + 1 + above, none, hskip, rfl⟩

end Lexer

/-! ### Texts -/

theorem isAllowed_of_toNat {c : Char} (h : 0x20 ≤ c.toNat ∧ c.toNat < 0x7F) :
    isAllowed c = true := by
  simp only [isAllowed, Bool.or_eq_true, Bool.and_eq_true, decide_eq_true_eq]
  omega

theorem IsPlainWord.isAllowed {w : List Char} (h : IsPlainWord w) :
    ∀ c ∈ w, isAllowed c = true := by
  intro c hc
  obtain ⟨hlow, hhigh⟩ := toNat_of_isPlainChar (h.chars c hc)
  exact isAllowed_of_toNat ⟨by omega, hhigh⟩

theorem Inline.IsRight.isAllowed {v : Inline} (h : v.IsRight) :
    ∀ c ∈ v.text, isAllowed c = true := by
  -- The characters of a word are allowed, and so are the blanks and marks around it.
  cases v with
  | plain w => exact IsPlainWord.isAllowed h
  | quoted w ws =>
    have hword : ∀ u ∈ w :: ws, ∀ c ∈ u, Yaml.isAllowed c = true := by
      intro u hu c hc
      obtain ⟨⟨hlow, hhigh⟩, -⟩ := (h u hu).chars c hc
      exact isAllowed_of_toNat ⟨by omega, hhigh⟩
    obtain ⟨hw, hws⟩ := List.forall_mem_cons.mp hword
    have hmore : ∀ c ∈ ws.flatMap (' ' :: ·), Yaml.isAllowed c = true := by
      intro c hc
      obtain ⟨u, hu, hc⟩ := List.mem_flatMap.mp hc
      obtain rfl | hc := List.mem_cons.mp hc
      · decide
      · exact hws u hu c hc
    rw [text, spaced, List.forall_mem_cons, List.forall_mem_append, List.forall_mem_append]
    exact ⟨by decide, ⟨hw, hmore⟩, List.forall_mem_singleton.mpr (by decide)⟩

theorem Content.IsRight.isAllowed {content : Content} (h : content.IsRight) :
    ∀ c ∈ content.text, isAllowed c = true := by
  -- a dash and its blank are allowed, and so is what a word or a key is made of
  have hdash : ∀ rest : List Char, (∀ c ∈ rest, Yaml.isAllowed c = true) →
      ∀ c ∈ '-' :: ' ' :: rest, Yaml.isAllowed c = true := by
    intro rest hrest
    rw [List.forall_mem_cons, List.forall_mem_cons]
    exact ⟨by decide, by decide, hrest⟩
  cases content with
  | item w => exact hdash w (IsPlainWord.isAllowed h)
  | entry dash key value =>
    obtain ⟨hkey, -, hvalue⟩ := h
    have hvalueText : ∀ c ∈ valueText value, Yaml.isAllowed c = true := by
      cases value with
      | none => exact nofun
      | some v =>
        rw [valueText, List.forall_mem_cons]
        exact ⟨by decide, (hvalue v rfl).isAllowed⟩
    have hentry : ∀ c ∈ key ++ ':' :: valueText value, Yaml.isAllowed c = true := by
      rw [List.forall_mem_append, List.forall_mem_cons]
      exact ⟨hkey.isAllowed, by decide, hvalueText⟩
    cases dash with
    | true => exact hdash _ hentry
    | false => exact hentry

theorem isAllowed_textOf {ls : List Line} (h : Fits ls) : ∀ c ∈ textOf ls, isAllowed c = true := by
  induction ls with
  | nil => exact nofun
  | cons l ls ih =>
    have hlead : ∀ c ∈ lead l.above l.column, isAllowed c = true := by
      intro c hc
      obtain hc | hc := List.mem_append.mp hc
      · rw [List.eq_of_mem_replicate hc]
        decide
      · rw [List.eq_of_mem_replicate hc]
        decide
    rw [textOf, List.forall_mem_append, List.forall_mem_append, List.forall_mem_cons]
    exact ⟨hlead, h.1.isAllowed, by decide, ih h.2.2⟩

/-- The tokens of lines. -/
def tokensOf (ls : List Line) : List Token :=
  (ls.foldl Line.lex { cursor := .ofList [] }).ended.tokens.reverse

/-- **The tokens of a text are those of its lines.** -/
theorem tokens_textOf {ls : List Line} (h : Fits ls) : tokens (textOf ls) = .ok (tokensOf ls) := by
  have hallowed : (textOf ls).all isAllowed = true := List.all_eq_true.mpr (isAllowed_textOf h)
  have hready := Lexer.ready_of_start (m := { cursor := .ofList [] }) h rfl
    (le_refl (textOf ls).length)
  have hbody : (bodyOf ls).length ≤ (textOf ls).length := by
    rw [textOf_eq, List.length_append]
    omega
  have hrun : (Lexer.run ((textOf ls).length + 1) { cursor := .ofList (textOf ls) }).map (·.tokens) =
      .ok (ls.foldl Line.lex { cursor := .ofList [] }).ended.tokens :=
    Lexer.run_lines h rfl hready le_rfl (by omega)
  rw [tokens, hallowed]
  cases hlexed : Lexer.run ((textOf ls).length + 1) { cursor := .ofList (textOf ls) } with
  | error e =>
    rw [hlexed] at hrun
    cases hrun
  | ok s =>
    rw [hlexed] at hrun
    rw [tokensOf, ← Except.ok.inj hrun]
    rfl

end Bindery.Yaml
