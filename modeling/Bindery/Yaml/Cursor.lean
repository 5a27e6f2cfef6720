import Bindery.Yaml.Token

/-!
# Reading characters of YAML

A `Cursor` is a place in a text: what is left of it, how many bytes and lines lie
before, and how many characters of its line. Five characters and one pair of
characters end a line.
-/

namespace Bindery.Yaml

/-! ### Classes of characters -/

/-- A character that ends a line. -/
def isBreak (c : Char) : Bool :=
  c = '\n' || c = '\r' || c = '\u0085' || c = '\u2028' || c = '\u2029'

/-- A blank or a tab. -/
def isGap (c : Char) : Bool := c = ' ' || c = '\t'

/-- A blank, a tab or a line break. -/
def isSpace (c : Char) : Bool := isGap c || isBreak c

/-- A character of names of anchors, directives and tag handles. -/
def isNameChar (c : Char) : Bool := c.isAlphanum || c = '_' || c = '-'

/-- A character that may occur in a text. -/
def isAllowed (c : Char) : Bool :=
  let n := c.toNat
  n = 0x09 || n = 0x0A || n = 0x0D || (0x20 ≤ n && n ≤ 0x7E) || n = 0x85
    || (0xA0 ≤ n && n ≤ 0xFFFD) || 0x10000 ≤ n

/-- Whether a text is at its end or begins with a space. -/
def endsWord : List Char → Bool
  | [] => true
  | c :: _ => isSpace c

/-- Whether a text is at its end or at the end of a line. -/
def endsLine : List Char → Bool
  | [] => true
  | c :: _ => isBreak c

/-! ### Places -/

/-- A place in a text. -/
structure Cursor where
  rest : List Char
  /-- The number of characters of the whole text, a bound for loops. -/
  size : Nat
  /-- The number of bytes before. -/
  index : Nat := 0
  line : Nat := 0
  column : Nat := 0

namespace Cursor

/-- The beginning of a text. -/
def ofList (cs : List Char) : Cursor := { rest := cs, size := cs.length }

/-- The number of bytes of some characters. -/
def bytes : List Char → Nat
  | [] => 0
  | c :: cs => c.utf8Size + bytes cs

/-- Some characters further. -/
def advance (c : Cursor) (n : Nat) : Cursor :=
  { c with
    rest := c.rest.drop n, index := c.index + bytes (c.rest.take n), column := c.column + n }

/-- One character further. -/
def next (c : Cursor) : Cursor := c.advance 1

/-- Moves on over characters of a class and counts them. -/
def skipFrom (p : Char → Bool) (size line : Nat) : List Char → Nat → Nat → Cursor
  | [], index, column => ⟨[], size, index, line, column⟩
  | c :: cs, index, column =>
    if p c then skipFrom p size line cs (index + c.utf8Size) (column + 1)
    else ⟨c :: cs, size, index, line, column⟩

/-- Moves on over characters of a class, which holds no line break. -/
def skipWhile (p : Char → Bool) (c : Cursor) : Cursor :=
  skipFrom p c.size c.line c.rest c.index c.column

/-- Behind a line break, and the characters it stands for: a line feed unless it is
one of the two separators, which stand for themselves. -/
def takeBreak (c : Cursor) : List Char × Cursor :=
  let after (n : Nat) : Cursor := { c.advance n with line := c.line + 1, column := 0 }
  match c.rest with
  | '\r' :: '\n' :: _ => (['\n'], after 2)
  | '\u2028' :: _ => (['\u2028'], after 1)
  | '\u2029' :: _ => (['\u2029'], after 1)
  | [] => ([], c)
  | _ => (['\n'], after 1)

/-- Whether three given characters stand alone at the beginning of a line. -/
def atMarker (c : Cursor) (mark : Char) : Bool :=
  c.column = 0 &&
    match c.rest with
    | a :: b :: d :: rest => a = mark && b = mark && d = mark && endsWord rest
    | _ => false

/-- Whether a line begins a document or ends one. -/
def atDocumentMarker (c : Cursor) : Bool := c.atMarker '-' || c.atMarker '.'

end Cursor

end Bindery.Yaml
