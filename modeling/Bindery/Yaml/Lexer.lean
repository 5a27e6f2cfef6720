import Bindery.Yaml.Scalar

/-!
# From text to tokens

The lexer goes through a text once. Two things make it more than a loop over
tokens. Indentation opens and closes blocks: a stack holds the columns of the
open ones. And a key is recognised only by the colon after it: wherever a key may
stand its place is remembered, and when the colon comes a `key` token, and the
start of a block where one is due, is inserted there. A key must end on its line
and within 1024 bytes.
-/

namespace Bindery.Yaml

/-- A place where a key may have begun. -/
structure KeyPlace where
  /-- Whether only a key can stand there. -/
  required : Bool
  /-- The number of tokens before it. -/
  number : Nat
  index : Nat
  line : Nat
  column : Nat

/-- The state of the lexer. -/
structure Lexer where
  cursor : Cursor
  /-- The tokens found, the last one first. -/
  tokens : List Token := []
  count : Nat := 0
  /-- The column of the innermost block. -/
  indent : Int := -1
  /-- The columns of the blocks around it. -/
  indents : List Int := []
  /-- Whether a key may begin here. -/
  keyAllowed : Bool := true
  /-- The place of a possible key in the innermost flow collection, or outside of
  all of them. -/
  keyPlace : Option KeyPlace := none
  /-- The same for the flow collections around it. -/
  outerPlaces : List (Option KeyPlace) := []

namespace Lexer

/-- Whether the cursor is inside a flow collection. -/
def inFlow (s : Lexer) : Bool := !s.outerPlaces.isEmpty

/-- Inserts a token before the last `depth` ones. -/
def insertBelow (t : Token) : Nat → List Token → List Token
  | 0, ts => t :: ts
  | _ + 1, [] => [t]
  | depth + 1, x :: ts => x :: insertBelow t depth ts

/-- Adds a token at the end. -/
def push (s : Lexer) (t : Token) : Lexer :=
  { s with tokens := t :: s.tokens, count := s.count + 1 }

/-- Inserts a token after the first `number` ones. -/
def insertAt (s : Lexer) (number : Nat) (t : Token) : Lexer :=
  { s with tokens := insertBelow t (s.count - number) s.tokens, count := s.count + 1 }

/-! ### Indentation -/

/-- Opens a block at a column right of the innermost one; its start goes after the
first `number` tokens. -/
def openBlock (s : Lexer) (column number : Nat) (t : Token) : Lexer :=
  if s.inFlow || (column : Int) ≤ s.indent then s
  else { s with indents := s.indent :: s.indents, indent := column }.insertAt number t

/-- Closes the blocks right of a column. -/
def closeFrom (column : Int) (s : Lexer) : List Int → Lexer
  | [] => if column < s.indent then { s with indents := [], indent := -1 }.push .blockEnd else s
  | outer :: rest =>
    if column < s.indent then
      closeFrom column ({ s with indents := rest, indent := outer }.push .blockEnd) rest
    else s

/-- Closes the blocks right of a column. Flow collections do not heed columns. -/
def closeBlocks (s : Lexer) (column : Int) : Lexer :=
  if s.inFlow then s else s.closeFrom column s.indents

/-! ### Keys -/

/-- Whether a place is too far back for the key to end here. -/
def isStale (c : Cursor) (k : KeyPlace) : Bool := k.line < c.line || k.index + 1024 < c.index

/-- Gives a place up, unless a key had to be there. -/
def giveUp : Option KeyPlace → Except Problem Unit
  | some k => if k.required then .error .missingColon else .ok ()
  | none => .ok ()

/-- A place, unless it is too far back. -/
def refresh (c : Cursor) (place : Option KeyPlace) : Except Problem (Option KeyPlace) :=
  match place with
  | some k =>
    if isStale c k then do
      giveUp place
      return none
    else return place
  | none => return none

/-- Gives up all places that are too far back. -/
def dropStale (s : Lexer) : Except Problem Lexer := do
  let outerPlaces ← s.outerPlaces.mapM (refresh s.cursor)
  let keyPlace ← refresh s.cursor s.keyPlace
  return { s with keyPlace, outerPlaces }

/-- Gives up the current place. -/
def dropKey (s : Lexer) : Except Problem Lexer := do
  giveUp s.keyPlace
  return { s with keyPlace := none }

/-- Remembers the current place if a key may begin here. -/
def saveKey (s : Lexer) : Except Problem Lexer := do
  if !s.keyAllowed then return s
  let s ← s.dropKey
  let c := s.cursor
  let place : KeyPlace :=
    ⟨!s.inFlow && s.indent = c.column, s.count, c.index, c.line, c.column⟩
  return { s with keyPlace := some place }

/-! ### Between tokens -/

/-- Moves on to the next token: over blanks, comments and line breaks. Tabs count as
blanks where no key may begin, and a byte order mark may begin a line. -/
def skipToToken : Nat → Lexer → Lexer
  | 0, s => s
  | fuel + 1, s =>
    let c := if s.cursor.column = 0 && s.cursor.rest.head? = some '\ufeff' then s.cursor.next
      else s.cursor
    let tabs := s.inFlow || !s.keyAllowed
    let c := c.skipWhile fun x => x = ' ' || (tabs && x = '\t')
    let c := if c.rest.head? = some '#' then c.skipWhile fun x => !isBreak x else c
    match c.rest with
    | [] => { s with cursor := c }
    | x :: _ =>
      if isBreak x then
        skipToToken fuel
          { s with cursor := c.takeBreak.2, keyAllowed := if s.inFlow then s.keyAllowed else true }
      else { s with cursor := c }

/-! ### Directives, anchors and tags -/

/-- Reads a number of at most nine digits. -/
def readVersionNumber (c : Cursor) : Except Problem (Nat × Cursor) :=
  let digits := c.rest.takeWhile Char.isDigit
  if digits.isEmpty || 9 < digits.length then .error .badDirective
  else .ok (digits.foldl (fun n d => 10 * n + (d.toNat - '0'.toNat)) 0, c.advance digits.length)

/-- Reads a tag handle: an exclamation mark, a name, and perhaps another mark. -/
def readTagHandle (directive : Bool) (c : Cursor) : Except Problem (List Char × Cursor) :=
  match c.rest with
  | '!' :: rest =>
    let name := rest.takeWhile isNameChar
    match rest.drop name.length with
    | '!' :: _ => .ok ('!' :: name ++ ['!'], c.advance (name.length + 2))
    | _ =>
      if directive && !name.isEmpty then .error .badTag
      else .ok ('!' :: name, c.advance (name.length + 1))
  | _ => .error .badTag

/-- A character of the address that a tag stands for. -/
def isTagChar (flowMarks : Bool) (c : Char) : Bool :=
  isNameChar c || ";/?:@&=+$.%!~*'()".toList.contains c
    || (flowMarks && (c = ',' || c = '[' || c = ']'))

/-- The length that the first byte of a character announces. -/
def byteCount (b : Nat) : Nat :=
  if b < 0x80 then 1 else if b &&& 0xE0 = 0xC0 then 2
  else if b &&& 0xF0 = 0xE0 then 3 else if b &&& 0xF8 = 0xF0 then 4 else 0

/-- The bytes that escapes of a percent sign and two digits write, and the rest. -/
def readEscapedBytes : Nat → List Char → Option (List Nat × List Char)
  | 0, cs => some ([], cs)
  | n + 1, '%' :: a :: b :: cs => do
    let byte ← hexValue? [a, b]
    let (bytes, cs) ← readEscapedBytes n cs
    return (byte :: bytes, cs)
  | _ + 1, _ => none

/-- Reads the bytes of one escaped character: as many as the first one announces, and
all others such as may follow it. -/
def readTagEscape (c : Cursor) : Except Problem (TagAddress × Cursor) := do
  match c.rest with
  | '%' :: a :: b :: _ =>
    match hexValue? [a, b] with
    | none => throw .badTag
    | some first =>
      match byteCount first with
      | 0 => throw .badTag
      | n =>
        match readEscapedBytes n c.rest with
        | none => throw .badTag
        | some (bytes, _) =>
          if (bytes.drop 1).all fun x => x &&& 0xC0 = 0x80 then
            return (bytes.map Nat.toUInt8, c.advance (3 * n))
          else throw .badTag
  | _ => throw .badTag

/-- Reads the address of a tag. -/
def readTagText (flowMarks : Bool) :
    Nat → List UInt8 → Cursor → Except Problem (List UInt8 × Cursor)
  | 0, acc, c => .ok (acc, c)
  | fuel + 1, acc, c =>
    match c.rest with
    | [] => .ok (acc, c)
    | x :: _ =>
      if x = '%' then do
        let (text, c) ← readTagEscape c
        readTagText flowMarks fuel (text.reverse ++ acc) c
      else if isTagChar flowMarks x then
        readTagText flowMarks fuel (x.toNat.toUInt8 :: acc) c.next
      else .ok (acc, c)

/-- Reads the address of a tag after `lead`. Together they are not empty, where the
mark of the lead counts. The address ends before a zero. -/
def readTagAddress (flowMarks : Bool) (lead : List Char) (c : Cursor) :
    Except Problem (TagAddress × Cursor) := do
  let (acc, after) ← readTagText flowMarks (c.size + 1) [] c
  if lead.isEmpty && acc.isEmpty then throw .badTag
  let address := TagAddress.ofString (String.ofList (lead.drop 1)) ++ acc.reverse
  return (address.takeWhile (· ≠ 0), after)

/-- Reads a directive; the cursor is at the percent sign. -/
def readDirective (c : Cursor) : Except Problem (Token × Cursor) := do
  let c := c.next
  let name := c.rest.takeWhile isNameChar
  let c := c.advance name.length
  if name.isEmpty || !endsWord c.rest then throw .badDirective
  let (token, c) ←
    if name = "YAML".toList then do
      let (major, c) ← readVersionNumber (c.skipWhile isGap)
      if c.rest.head? ≠ some '.' then throw .badDirective
      let (minor, c) ← readVersionNumber c.next
      pure (Token.versionDirective major minor, c)
    else if name = "TAG".toList then do
      let (handle, c) ← readTagHandle true (c.skipWhile isGap)
      if !c.rest.head?.any isGap then throw .badDirective
      let (lead, c) ← readTagAddress true [] (c.skipWhile isGap)
      if !endsWord c.rest then throw .badDirective
      pure (Token.tagDirective (String.ofList handle) lead, c)
    else throw .badDirective
  let c := c.skipWhile isGap
  let c := if c.rest.head? = some '#' then c.skipWhile (fun x => !isBreak x) else c
  if !endsLine c.rest then throw .badDirective
  return (token, c.takeBreak.2)

/-- Reads the name of an anchor or alias; the cursor is at its mark. -/
def readAnchor (c : Cursor) : Except Problem (String × Cursor) :=
  let c := c.next
  let name := c.rest.takeWhile isNameChar
  let after := c.advance name.length
  if name.isEmpty
      || !(endsWord after.rest || after.rest.head?.any fun x => "?:,]\x7d%@`".toList.contains x) then
    .error .badAnchor
  else .ok (String.ofList name, after)

/-- Reads a tag; the cursor is at the exclamation mark. -/
def readTag (inFlow : Bool) (c : Cursor) : Except Problem (Token × Cursor) := do
  let (token, c) ←
    match c.rest with
    | _ :: '<' :: _ => do
      let (text, c) ← readTagAddress true [] (c.advance 2)
      if c.rest.head? ≠ some '>' then throw .badTag
      pure (Token.tag "" text, c.next)
    | _ => do
      let (handle, c) ← readTagHandle false c
      if 1 < handle.length && handle.getLast? = some '!' then do
        let (suffix, c) ← readTagAddress false [] c
        pure (Token.tag (String.ofList handle) suffix, c)
      else do
        let (suffix, c) ← readTagAddress false handle c
        pure (if suffix.isEmpty then Token.tag "" (.ofString "!") else Token.tag "!" suffix, c)
  if !endsWord c.rest && !(inFlow && c.rest.head? = some ',') then throw .badTag
  return (token, c)

/-! ### Tokens -/

/-- The end of the text. -/
def finish (s : Lexer) : Except Problem Lexer := do
  let s ← (s.closeBlocks (-1)).dropKey
  return s.push .streamEnd

/-- A token of `n` characters before which all blocks end. -/
def documentMark (s : Lexer) (t : Token) : Except Problem Lexer := do
  let s ← (s.closeBlocks (-1)).dropKey
  return { s with keyAllowed := false, cursor := s.cursor.advance 3 }.push t

/-- A directive. -/
def directive (s : Lexer) : Except Problem Lexer := do
  let s ← (s.closeBlocks (-1)).dropKey
  let (t, cursor) ← readDirective s.cursor
  return { s with keyAllowed := false, cursor }.push t

/-- The beginning of a flow collection. -/
def flowStart (s : Lexer) (t : Token) : Except Problem Lexer := do
  let s ← s.saveKey
  return { s with
    keyPlace := none, outerPlaces := s.keyPlace :: s.outerPlaces
    keyAllowed := true, cursor := s.cursor.next }.push t

/-- The end of a flow collection. -/
def flowEnd (s : Lexer) (t : Token) : Except Problem Lexer := do
  let s ← s.dropKey
  let s := match s.outerPlaces with
    | [] => s
    | place :: rest => { s with keyPlace := place, outerPlaces := rest }
  return { s with keyAllowed := false, cursor := s.cursor.next }.push t

/-- A comma. -/
def flowEntry (s : Lexer) : Except Problem Lexer := do
  let s ← s.dropKey
  return { s with keyAllowed := true, cursor := s.cursor.next }.push .flowEntry

/-- A dash. -/
def blockEntry (s : Lexer) : Except Problem Lexer := do
  if !s.inFlow && !s.keyAllowed then throw .misplaced
  let s ← (s.openBlock s.cursor.column s.count .blockListStart).dropKey
  return { s with keyAllowed := true, cursor := s.cursor.next }.push .blockEntry

/-- A question mark. -/
def explicitKey (s : Lexer) : Except Problem Lexer := do
  if !s.inFlow && !s.keyAllowed then throw .misplaced
  let s ← (s.openBlock s.cursor.column s.count .blockTableStart).dropKey
  return { s with keyAllowed := !s.inFlow, cursor := s.cursor.next }.push .key

/-- A colon: it makes a key of what stands at the remembered place, or follows an
explicit key. -/
def colon (s : Lexer) : Except Problem Lexer := do
  match s.keyPlace with
  | some k =>
    let s := (s.insertAt k.number .key).openBlock k.column k.number .blockTableStart
    return { s with keyPlace := none, keyAllowed := false, cursor := s.cursor.next }.push .value
  | none =>
    if !s.inFlow && !s.keyAllowed then throw .misplaced
    let s := s.openBlock s.cursor.column s.count .blockTableStart
    return { s with keyAllowed := !s.inFlow, cursor := s.cursor.next }.push .value

/-- An alias or an anchor. -/
def named (s : Lexer) (t : String → Token) : Except Problem Lexer := do
  let s ← s.saveKey
  let (name, cursor) ← readAnchor s.cursor
  return { s with keyAllowed := false, cursor }.push (t name)

/-- A tag. -/
def tag (s : Lexer) : Except Problem Lexer := do
  let s ← s.saveKey
  let (t, cursor) ← readTag s.inFlow s.cursor
  return { s with keyAllowed := false, cursor }.push t

/-- A block scalar. -/
def blockScalar (s : Lexer) (literal : Bool) : Except Problem Lexer := do
  let s ← s.dropKey
  let (text, cursor) ← readBlock literal s.indent s.cursor.next
  return { s with keyAllowed := true, cursor }.push (.scalar text .explicit)

/-- A quoted scalar. -/
def quotedScalar (s : Lexer) (quote : Char) : Except Problem Lexer := do
  let s ← s.saveKey
  let (text, cursor) ← readQuoted quote s.cursor
  return { s with keyAllowed := false, cursor }.push (.scalar text .explicit)

/-- A plain scalar. -/
def plainScalar (s : Lexer) : Except Problem Lexer := do
  let s ← s.saveKey
  let (text, broken, cursor) ← readPlain s.inFlow (s.indent + 1).toNat s.cursor
  return { s with keyAllowed := broken, cursor }.push (.scalar text .plain)

/-- Whether a character has a meaning of its own at the beginning of a token. -/
def isIndicator (c : Char) : Bool :=
  isSpace c || "-?:,[]\x7b\x7d#&*!|>'\"%@`".toList.contains c

/-- The token at the cursor, of which there is a first character `x`. -/
def token (s : Lexer) (x : Char) (rest : List Char) : Except Problem Lexer :=
  let alone := endsWord rest
  if s.cursor.column = 0 && x = '%' then s.directive
  else if s.cursor.atMarker '-' then s.documentMark .documentStart
  else if s.cursor.atMarker '.' then s.documentMark .documentEnd
  else if x = '[' then s.flowStart .flowListStart
  else if x = '\x7b' then s.flowStart .flowTableStart
  else if x = ']' then s.flowEnd .flowListEnd
  else if x = '\x7d' then s.flowEnd .flowTableEnd
  else if x = ',' then s.flowEntry
  else if x = '-' && alone then s.blockEntry
  else if x = '?' && (s.inFlow || alone) then s.explicitKey
  else if x = ':' && (s.inFlow || alone) then s.colon
  else if x = '*' then s.named .alias
  else if x = '&' then s.named .anchor
  else if x = '!' then s.tag
  else if x = '|' && !s.inFlow then s.blockScalar true
  else if x = '>' && !s.inFlow then s.blockScalar false
  else if x = '\'' || x = '"' then s.quotedScalar x
  else if !isIndicator x || (x = '-' && !rest.head?.any isGap)
      || (!s.inFlow && (x = '?' || x = ':') && !alone) then s.plainScalar
  else .error .strayCharacter

/-- Goes on to the end of the text. -/
def run : Nat → Lexer → Except Problem Lexer
  | 0, s => s.finish
  | fuel + 1, s => do
    let s ← (skipToToken (s.cursor.size + 1) s).dropStale
    let s := s.closeBlocks s.cursor.column
    match s.cursor.rest with
    | [] => s.finish
    | x :: rest => (← s.token x rest).run fuel

end Lexer

/-- The tokens of a text. -/
def tokens (cs : List Char) : Except Problem (List Token) := do
  if !cs.all isAllowed then throw .controlCharacter
  let s ← Lexer.run (cs.length + 1) { cursor := .ofList cs }
  return s.tokens.reverse

end Bindery.Yaml
