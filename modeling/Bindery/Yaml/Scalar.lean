import Bindery.Yaml.Cursor

/-!
# Scalars of YAML

Plain, quoted and block scalars. Inside a plain or quoted scalar blanks at line
ends disappear, one line break becomes a blank, and of several line breaks the
first disappears. A folded block does the same between lines that do not begin
with a blank; a literal block keeps its lines.

Texts are collected backwards. Each loop is bounded by the number of characters
of the whole text, since every round takes at least one.
-/

namespace Bindery.Yaml

/-! ### Gaps between words -/

/-- What lies between two words of a scalar. -/
structure Gap where
  /-- Whether a line has ended. -/
  broken : Bool := false
  /-- Blanks on the line of the word before. -/
  blanks : List Char := []
  /-- What the first line break stands for. -/
  first : List Char := []
  /-- What further line breaks stand for. -/
  further : List Char := []

/-- The characters that a gap stands for. -/
def Gap.text (g : Gap) : List Char :=
  if !g.broken then g.blanks
  else if g.first = ['\n'] then (if g.further.isEmpty then [' '] else g.further)
  else g.first ++ g.further

/-- Reads blanks and line breaks. A tab that begins a line left of `indent` is
refused. -/
def readGap (indent : Nat) : Nat → Gap → Cursor → Except Problem (Gap × Cursor)
  | 0, g, c => .ok (g, c)
  | fuel + 1, g, c =>
    match c.rest with
    | [] => .ok (g, c)
    | x :: _ =>
      if isGap x then
        if g.broken && c.column < indent && x = '\t' then .error .tab
        else if g.broken then readGap indent fuel g c.next
        else readGap indent fuel { g with blanks := g.blanks ++ [x] } c.next
      else if isBreak x then
        let (text, c) := c.takeBreak
        if g.broken then readGap indent fuel { g with further := g.further ++ text } c
        else readGap indent fuel { g with broken := true, blanks := [], first := text } c
      else .ok (g, c)

/-! ### Plain scalars -/

/-- A character that ends or structures a flow collection. -/
def isFlowMark (c : Char) : Bool :=
  c = ',' || c = '[' || c = ']' || c = '\x7b' || c = '\x7d'

/-- Reads the characters of a word. A colon before a space ends it, and so does a
mark of a flow collection inside one; a colon right before such a mark is refused. -/
def readWord (inFlow : Bool) : Nat → List Char → Cursor → Except Problem (List Char × Cursor)
  | 0, acc, c => .ok (acc, c)
  | fuel + 1, acc, c =>
    match c.rest with
    | [] => .ok (acc, c)
    | x :: rest =>
      if isSpace x then .ok (acc, c)
      else if inFlow && x = ':' && rest.head?.any (fun y => isFlowMark y || y = '?') then
        .error .strayCharacter
      else if (x = ':' && endsWord rest) || (inFlow && isFlowMark x) then .ok (acc, c)
      else readWord inFlow fuel (x :: acc) c.next

/-- Reads a plain scalar word by word. `acc` is the text so far and `gap` what lies
before the next word. The answer also says whether a line ended after the last
word. -/
def readPlainFrom (inFlow : Bool) (indent : Nat) :
    Nat → List Char → Gap → Cursor → Except Problem (List Char × Bool × Cursor)
  | 0, acc, gap, c => .ok (acc, gap.broken, c)
  | fuel + 1, acc, gap, c =>
    if c.atDocumentMarker || c.rest.head? = some '#' then .ok (acc, gap.broken, c)
    else do
      let (word, after) ← readWord inFlow c.size [] c
      let acc' := if word.isEmpty then acc else word ++ gap.text.reverse ++ acc
      let gap' := if word.isEmpty then gap else {}
      match after.rest with
      | [] => return (acc', gap'.broken, after)
      | x :: _ =>
        if !isSpace x then return (acc', gap'.broken, after)
        else
          let (gap', after) ← readGap indent after.size gap' after
          if !inFlow && after.column < indent then return (acc', gap'.broken, after)
          else readPlainFrom inFlow indent fuel acc' gap' after

/-- Reads a plain scalar that must stay right of `indent`. -/
def readPlain (inFlow : Bool) (indent : Nat) (c : Cursor) :
    Except Problem (String × Bool × Cursor) := do
  let (acc, broken, c) ← readPlainFrom inFlow indent (c.size + 1) [] {} c
  return (String.ofList acc.reverse, broken, c)

/-! ### Quoted scalars -/

/-- The value of a hexadecimal digit. -/
def hexDigit? (c : Char) : Option Nat :=
  if c.isDigit then some (c.toNat - '0'.toNat)
  else if 'a' ≤ c ∧ c ≤ 'f' then some (c.toNat - 'a'.toNat + 10)
  else if 'A' ≤ c ∧ c ≤ 'F' then some (c.toNat - 'A'.toNat + 10)
  else none

/-- The number that hexadecimal digits write. -/
def hexValue? (cs : List Char) : Option Nat :=
  cs.foldlM (fun n c => (hexDigit? c).map (16 * n + ·)) 0

/-- The character with a number, surrogates and numbers beyond the last one
refused. -/
def charOf? (n : Nat) : Option Char :=
  if n.isValidChar then some (Char.ofNat n) else none

/-- The character that an escape of one letter stands for. -/
def shortEscape? : Char → Option Char
  | '0' => some '\x00' | 'a' => some '\x07' | 'b' => some '\x08' | 't' | '\t' => some '\t'
  | 'n' => some '\n' | 'v' => some '\x0b' | 'f' => some '\x0c' | 'r' => some '\r'
  | 'e' => some '\x1b' | ' ' => some ' ' | '"' => some '"' | '/' => some '/' | '\\' => some '\\'
  | 'N' => some '\u0085' | '_' => some '\u00a0' | 'L' => some '\u2028' | 'P' => some '\u2029'
  | _ => none

/-- The number of digits of an escape by number. -/
def escapeWidth? : Char → Option Nat
  | 'x' => some 2 | 'u' => some 4 | 'U' => some 8
  | _ => none

/-- Reads what follows a backslash that does not end a line. -/
def readEscape (c : Cursor) : Except Problem (Char × Cursor) :=
  match c.rest with
  | [] => .error .badEscape
  | x :: rest =>
    match shortEscape? x with
    | some d => .ok (d, c.next)
    | none =>
      match escapeWidth? x with
      | none => .error .badEscape
      | some n =>
        if rest.length < n then .error .badEscape
        else match hexValue? (rest.take n) >>= charOf? with
        | some d => .ok (d, c.advance (n + 1))
        | none => .error .badEscape

/-- Reads the characters of a word inside quotes. The answer says whether the word
ended with an escaped line break. -/
def readQuotedWord (quote : Char) :
    Nat → List Char → Cursor → Except Problem (List Char × Bool × Cursor)
  | 0, acc, c => .ok (acc, false, c)
  | fuel + 1, acc, c =>
    match c.rest with
    | [] => .ok (acc, false, c)
    | x :: rest =>
      if isSpace x then .ok (acc, false, c)
      else if x = '\'' && quote = '\'' && rest.head? = some '\'' then
        readQuotedWord quote fuel ('\'' :: acc) (c.advance 2)
      else if x = quote then .ok (acc, false, c)
      else if x = '\\' && quote = '"' then
        match rest with
        | y :: _ =>
          if isBreak y then .ok (acc, true, c.next.takeBreak.2)
          else do
            let (d, after) ← readEscape c.next
            readQuotedWord quote fuel (d :: acc) after
        | [] => .error .badEscape
      else readQuotedWord quote fuel (x :: acc) c.next

/-- Reads a quoted scalar word by word up to the closing quote. -/
def readQuotedFrom (quote : Char) : Nat → List Char → Cursor → Except Problem (List Char × Cursor)
  | 0, _, _ => .error .unclosedQuote
  | fuel + 1, acc, c =>
    if c.atDocumentMarker || c.rest.isEmpty then .error .unclosedQuote
    else do
      let (acc, escaped, c) ← readQuotedWord quote c.size acc c
      if c.rest.head? = some quote then return (acc, c.next)
      let (gap, c) ← readGap 0 c.size { broken := escaped } c
      readQuotedFrom quote fuel (gap.text.reverse ++ acc) c

/-- Reads a quoted scalar; the cursor is at the opening quote. -/
def readQuoted (quote : Char) (c : Cursor) : Except Problem (String × Cursor) := do
  let (acc, c) ← readQuotedFrom quote (c.size + 1) [] c.next
  return (String.ofList acc.reverse, c)

/-! ### Block scalars -/

/-- What becomes of the line breaks at the end of a block. -/
inductive Chomping where
  | strip | clip | keep
deriving DecidableEq, Repr

/-- The chomping that a sign stands for. -/
def Chomping.of? : Char → Option Chomping
  | '+' => some .keep
  | '-' => some .strip
  | _ => none

/-- A digit from one to nine. -/
def increment? (c : Char) : Except Problem (Option Nat) :=
  if c = '0' then .error .badBlockHeader
  else if c.isDigit then .ok (some (c.toNat - '0'.toNat)) else .ok none

/-- Reads the signs after the mark of a block: chomping and indentation in either
order. -/
def readBlockSigns (c : Cursor) : Except Problem (Chomping × Option Nat × Cursor) := do
  match c.rest with
  | [] => return (.clip, none, c)
  | x :: rest =>
    match Chomping.of? x with
    | some chomp =>
      match rest with
      | [] => return (chomp, none, c.next)
      | y :: _ =>
        match ← increment? y with
        | some n => return (chomp, some n, c.advance 2)
        | none => return (chomp, none, c.next)
    | none =>
      match ← increment? x with
      | none => return (.clip, none, c)
      | some n =>
        match rest.head? >>= Chomping.of? with
        | some chomp => return (chomp, some n, c.advance 2)
        | none => return (.clip, some n, c.next)

/-- Reads indentation and empty lines. With no indentation given, the widest one
seen is found. -/
def readBlockBreaks (indent : Option Nat) :
    Nat → Nat → List Char → Cursor → Except Problem (Nat × List Char × Cursor)
  | 0, widest, breaks, c => .ok (widest, breaks, c)
  | fuel + 1, widest, breaks, c =>
    let c := match indent with
      | none => c.skipWhile (· = ' ')
      | some n => c.advance ((c.rest.take (n - c.column)).takeWhile (· = ' ')).length
    let widest := max widest c.column
    let inside := match indent with
      | none => true
      | some n => c.column < n
    match c.rest with
    | [] => .ok (widest, breaks, c)
    | x :: _ =>
      if inside && x = '\t' then .error .tab
      else if isBreak x then
        let (text, c) := c.takeBreak
        readBlockBreaks indent fuel widest (breaks ++ text) c
      else .ok (widest, breaks, c)

/-- The lines of a block. `first` is what the line break before stands for,
`breaks` what the empty lines after it stand for, and `wasBlank` whether the line
before began with a blank. -/
def readBlockLines (literal : Bool) (indent : Nat) :
    Nat → List Char → List Char → List Char → Bool → Cursor →
      Except Problem (List Char × List Char × List Char × Cursor)
  | 0, acc, first, breaks, _, c => .ok (acc, first, breaks, c)
  | fuel + 1, acc, first, breaks, wasBlank, c =>
    match c.rest with
    | [] => .ok (acc, first, breaks, c)
    | x :: _ =>
      if c.column ≠ indent then .ok (acc, first, breaks, c)
      else do
        let lead :=
          if !literal && first = ['\n'] && !wasBlank && !isGap x then
            (if breaks.isEmpty then [' '] else [])
          else first
        let line := c.rest.takeWhile fun y => !isBreak y
        let acc := line.reverse ++ (breaks.reverse ++ (lead.reverse ++ acc))
        let (first, c) := (c.skipWhile fun y => !isBreak y).takeBreak
        let (_, breaks, c) ← readBlockBreaks (some indent) (c.size + 1) 0 [] c
        readBlockLines literal indent fuel acc first breaks (isGap x) c

/-- Reads a block scalar inside a block at `indent`; the cursor is behind the mark. -/
def readBlock (literal : Bool) (indent : Int) (c : Cursor) : Except Problem (String × Cursor) := do
  let (chomp, increment, c) ← readBlockSigns c
  let c := c.skipWhile isGap
  let c := if c.rest.head? = some '#' then c.skipWhile (fun x => !isBreak x) else c
  if !endsLine c.rest then throw .badBlockHeader
  let c := c.takeBreak.2
  let given := increment.map fun n => (if 0 ≤ indent then indent.toNat + n else n)
  let (widest, breaks, c) ← readBlockBreaks given (c.size + 1) 0 [] c
  let column := match given with
    | some n => n
    | none => max (max widest (indent + 1).toNat) 1
  let (acc, first, breaks, c) ← readBlockLines literal column (c.size + 1) [] [] breaks false c
  let tail := match chomp with
    | .strip => []
    | .clip => first
    | .keep => first ++ breaks
  return (String.ofList (acc.reverse ++ tail), c)

end Bindery.Yaml
