/-!
# Cutting and joining text

Names, schema lines and paths are taken apart with a handful of operations on
lists of characters. Each is stated once on `List Char`, where it is a fold or a
structural recursion, and once on `String`, where it is called.

* `cut` splits at every occurrence of one character and never loses an empty
  piece, so joining the pieces with that character gives the text back.
* `dropPrefix?` and `dropSuffix?` remove a known beginning or ending.
* `substitute` replaces single characters by texts.
-/

namespace Bindery.Text

/-! ### On lists of characters -/

/-- Cuts a text at every `sep`. There is always at least one piece, and pieces
may be empty. -/
def cutList (sep : Char) (cs : List Char) : List (List Char) :=
  cs.foldr
    (fun c pieces =>
      if c = sep then [] :: pieces
      else match pieces with
        | [] => [[c]]
        | piece :: rest => (c :: piece) :: rest)
    [[]]

/-- What is left of `cs` once the beginning `start` is removed. -/
def dropPrefixList? : List Char → List Char → Option (List Char)
  | [], cs => some cs
  | _ :: _, [] => none
  | p :: ps, c :: cs => if p = c then dropPrefixList? ps cs else none

/-- Cuts a text before the first position where `needle` starts. -/
def beforeFirst (needle : List Char) : List Char → List Char
  | [] => []
  | c :: cs => if (dropPrefixList? needle (c :: cs)).isSome then [] else c :: beforeFirst needle cs

/-! ### On strings -/

/-- The pieces of `s` between occurrences of `sep`. -/
def cut (sep : Char) (s : String) : List String :=
  (cutList sep s.toList).map String.ofList

/-- The rest of `s` after the beginning `start`. -/
def dropPrefix? (start s : String) : Option String :=
  (dropPrefixList? start.toList s.toList).map String.ofList

/-- The rest of `s` before the ending `stop`. -/
def dropSuffix? (stop s : String) : Option String :=
  (dropPrefixList? stop.toList.reverse s.toList.reverse).map fun cs => String.ofList cs.reverse

/-- Whether `s` begins with `start`. -/
def startsWith (start s : String) : Bool :=
  (dropPrefixList? start.toList s.toList).isSome

/-- Replaces every character by a text. -/
def substitute (f : Char → String) (s : String) : String :=
  String.ofList (s.toList.flatMap fun c => (f c).toList)

/-- Replaces one character by a text. -/
def replaceChar (c : Char) (text : String) (s : String) : String :=
  substitute (fun d => if d = c then text else d.toString) s

/-- Applies a function to every character. -/
def mapChars (f : Char → Char) (s : String) : String :=
  String.ofList (s.toList.map f)

/-- The pieces joined by commas and blanks. -/
def commaSep (pieces : List String) : String :=
  ", ".intercalate pieces

/-- The text followed by blanks up to a width counted in characters. -/
def padRight (width : Nat) (s : String) : String :=
  s ++ String.ofList (List.replicate (width - s.length) ' ')

/-- The text repeated. -/
def times (n : Nat) (s : String) : String :=
  String.join (List.replicate n s)

/-- The lines of a text: cut at line feeds, with one carriage return removed from
the end of each line that a line feed ends, and no line after a final line feed. -/
def lines (s : String) : List String :=
  let pieces := cutList '\n' s.toList
  let ended := pieces.dropLast.map fun l =>
    match l.reverse with
    | '\r' :: rest => rest.reverse
    | _ => l
  let last := match pieces.getLast? with
    | some [] | none => []
    | some l => [l]
  (ended ++ last).map String.ofList

/-- Distinct members in order of first appearance. -/
def distinct {α : Type} [BEq α] (xs : List α) : List α :=
  xs.foldl (fun seen x => if seen.contains x then seen else seen ++ [x]) []

/-- Hexadecimal digits of a number, lower case, at least `width` of them. -/
def hex (width n : Nat) : String :=
  let digits := Nat.toDigits 16 n
  String.ofList (List.replicate (width - digits.length) '0' ++ digits)

end Bindery.Text
