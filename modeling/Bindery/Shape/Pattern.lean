/-!
# Patterns of text

Regular expressions over characters, matched by derivatives: the derivative of a
pattern by a character matches what may follow that character. A text matches
when the pattern that is left over at its end matches the empty text.
-/

namespace Bindery

/-- A regular expression. -/
inductive Pattern where
  /-- Matches no text. -/
  | never
  /-- Matches the empty text. -/
  | nothing
  /-- Matches one character of a class, given by ranges. -/
  | oneOf (ranges : List (Char × Char))
  | seq (a b : Pattern)
  | alt (a b : Pattern)
  | many (a : Pattern)
deriving DecidableEq, Repr

namespace Pattern

/-- Whether the empty text matches. -/
def matchesEmpty : Pattern → Bool
  | never | oneOf _ => false
  | nothing | many _ => true
  | seq a b => a.matchesEmpty && b.matchesEmpty
  | alt a b => a.matchesEmpty || b.matchesEmpty

/-- One pattern after the other, simplified. -/
def andThen : Pattern → Pattern → Pattern
  | never, _ => never
  | nothing, b => b
  | a, b => seq a b

/-- One pattern or the other, simplified. -/
def orElse : Pattern → Pattern → Pattern
  | never, b => b
  | a, never => a
  | a, b => if a = b then a else alt a b

/-- Whether a character lies in one of the ranges. -/
def inClass (ranges : List (Char × Char)) (c : Char) : Bool :=
  ranges.any fun r => r.1 ≤ c && c ≤ r.2

/-- What may follow a character. -/
def derivative (c : Char) : Pattern → Pattern
  | never | nothing => never
  | oneOf ranges => if inClass ranges c then nothing else never
  | seq a b =>
    let first := (a.derivative c).andThen b
    if a.matchesEmpty then first.orElse (b.derivative c) else first
  | alt a b => (a.derivative c).orElse (b.derivative c)
  | many a => (a.derivative c).andThen (many a)

/-- Whether a whole text matches. -/
def matchesList (p : Pattern) (cs : List Char) : Bool :=
  (cs.foldl (fun p c => p.derivative c) p).matchesEmpty

/-! ### Building patterns -/

/-- A given character. -/
def char (c : Char) : Pattern := oneOf [(c, c)]

/-- A given text. -/
def literal (s : String) : Pattern := s.toList.foldr (fun c p => (char c).andThen p) nothing

/-- At least one. -/
def atLeastOne (a : Pattern) : Pattern := a.seq (many a)

/-- One of several. -/
def choice (ps : List Pattern) : Pattern := ps.foldr orElse never

/-- Any character. -/
def anyChar : Pattern := oneOf [(Char.ofNat 0, Char.ofNat 0x10FFFF)]

end Pattern

end Bindery
