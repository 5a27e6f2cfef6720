import Bindery.Text.Basic

/-!
# Code that chooses its own line breaks

A `Doc` is a text with places where a line may end. Places are collected in
groups, and a group that does not fit in the rest of the line is broken: at every
place when it is *even*, and only where the next piece would not fit otherwise.
What a group must fit together with is the text behind it, up to the next place of
the list it stands in.

* `Doc.width` is the width of a document on one line, in bytes;
* `Doc.tail` is the width of what must stay on the line of a piece;
* `Doc.render` writes a document line by line.
-/

namespace Bindery

/-- The width of a page. -/
def Doc.pageWidth : Nat := 89

/-- However deep a line starts, this much of it may be used. -/
def Doc.leastWidth : Nat := 60

/-- How far code goes in with each level. -/
def Doc.step : Int := 4

/-- A place where a line may end. -/
inductive Doc.Ending where
  /-- The line ends when the group is broken; otherwise these blanks are written. -/
  | soft (blanks : Nat)
  /-- The line always ends. -/
  | forced
  /-- The line never ends, yet what stands before need not fit with what follows. -/
  | never
deriving DecidableEq, Repr

/-- A text with places where a line may end. -/
inductive Doc where
  | text (s : String)
  /-- A place where a line may end. The next line starts deeper by `offset`, and
  `mark` is written only when the line ends here. -/
  | stop (ending : Doc.Ending) (offset : Int) (mark : String)
  /-- Pieces that are broken or kept together. Inside a broken group lines start
  deeper by `offset`; `even` groups end a line at every place or at none. -/
  | group (even : Bool) (offset : Int) (body : List Doc)

namespace Doc

instance : Coe String Doc := ⟨text⟩

/-! ### Builders -/

/-- A place that leaves nothing on an unbroken line. -/
def zero : Doc := stop (.soft 0) 0 ""

/-- A place that leaves a blank on an unbroken line. -/
def blank : Doc := stop (.soft 1) 0 ""

/-- The end of a line. -/
def newline : Doc := stop .forced 0 ""

/-- A place that is never used. -/
def joint : Doc := stop .never 0 ""

/-- An even group. -/
def even (offset : Int) (body : List Doc) : Doc := group true offset body

/-- A group that is filled line by line. -/
def filled (offset : Int) (body : List Doc) : Doc := group false offset body

/-- Pieces with a comma between them and, on a broken group, behind the last one;
what follows the last one starts a level further out. -/
def commas : List (List Doc) → List Doc
  | [] => []
  | [last] => last ++ [stop (.soft 0) (-step) ","]
  | piece :: next :: rest => piece ++ text "," :: blank :: commas (next :: rest)

/-- Pieces that each end a line; what follows the last one starts a level further
out. -/
def lines : List (List Doc) → List Doc
  | [] => []
  | [last] => last ++ [stop .forced (-step) ""]
  | piece :: next :: rest => piece ++ newline :: lines (next :: rest)

/-! ### Widths -/

/-- The width that a place counts for. A forced one is wider than the page, so that
no group around it fits. -/
def Ending.width : Ending → Nat
  | soft blanks => blanks
  | forced => pageWidth + 1
  | never => 0

mutual

/-- The width on one line, in bytes. -/
def width : Doc → Nat
  | text s => s.utf8ByteSize
  | stop ending _ _ => ending.width
  | group _ _ body => totalWidth body

/-- The width of pieces on one line. -/
def totalWidth : List Doc → Nat
  | [] => 0
  | d :: ds => width d + totalWidth ds

end

/-- The width up to the next place of a list, or up to the one behind the list,
which is `outer` away from its end. -/
def tail (outer : Nat) : List Doc → Nat
  | [] => outer
  | stop .. :: _ => 0
  | d :: ds => width d + tail outer ds

/-! ### Writing -/

/-- What has been written. Blanks are held back until a text follows, so no line
ends in one. -/
structure Page where
  written : String := ""
  /-- The blanks held back. -/
  held : Nat := 0
  /-- The room left on the line. -/
  room : Int := pageWidth

/-- Writes a text. -/
def Page.put (p : Page) (s : String) : Page where
  written := p.written ++ Text.times p.held " " ++ s
  held := 0
  room := p.room - s.utf8ByteSize

/-- Leaves blanks. -/
def Page.skip (p : Page) (blanks : Nat) : Page :=
  { p with held := p.held + blanks, room := p.room - blanks }

/-- Ends the line and starts the next one at a depth. -/
def Page.turn (p : Page) (mark : String) (depth : Int) : Page where
  written := (if mark = "" then p.written else p.written ++ Text.times p.held " " ++ mark) ++ "\n"
  held := depth.toNat
  room := max ((pageWidth : Int) - depth) leastWidth

/-- What has become of the group around a piece. -/
inductive Setting where
  /-- It stays on one line. -/
  | fits
  /-- It is broken at every place. -/
  | evenly
  /-- It is broken where it has to be. -/
  | filling

/-- Whether a place leaves the line as it is. -/
def Setting.keeps (s : Setting) (ending : Ending) (trailing : Nat) (room : Int) : Bool :=
  match ending, s with
  | .never, _ => true
  | _, fits => true
  | _, evenly => false
  | e, filling => decide (((e.width + trailing : Nat) : Int) ≤ room)

mutual

/-- Writes a piece at a depth; `trailing` is the width that must follow it on its
line. -/
def write (s : Setting) (depth : Int) (trailing : Nat) : Doc → Page → Page
  | text t, p => p.put t
  | stop ending offset mark, p =>
    if s.keeps ending trailing p.room then p.skip ending.width else p.turn mark (depth + offset)
  | group even offset body, p =>
    if p.room < ((totalWidth body + trailing : Nat) : Int) then
      writeAll (if even then .evenly else .filling) (depth + offset) trailing body p
    else writeAll .fits depth trailing body p

/-- Writes pieces one after the other. -/
def writeAll (s : Setting) (depth : Int) (trailing : Nat) : List Doc → Page → Page
  | [], p => p
  | d :: ds, p => writeAll s depth trailing ds (write s depth (tail trailing ds) d p)

end

/-- The text of a document. -/
def render (body : List Doc) : String :=
  (writeAll .filling 0 0 body {}).written

@[simp] theorem totalWidth_append (a b : List Doc) :
    totalWidth (a ++ b) = totalWidth a + totalWidth b := by
  induction a with
  | nil => simp [totalWidth]
  | cons d ds ih => simp [totalWidth, ih, Nat.add_assoc]

@[simp] theorem width_group (even : Bool) (offset : Int) (body : List Doc) :
    width (group even offset body) = totalWidth body := by
  simp [width]

end Doc

end Bindery
