import Bindery.Json.Basic
import Bindery.Yaml.Node

/-!
# From a document to a tree

A plain scalar is null, a truth value, an integer or a decimal fraction if it
looks like one, and a text otherwise; quoted scalars are texts. The core tags say
which of these a scalar must be. Keys are taken as their text, and of two entries
with one key the later one counts.

Nesting is limited to 128 lists and tables, and references may be followed at
most a hundred times as often as the document has parts.
-/

namespace Bindery.Yaml

/-! ### Scalars -/

/-- A null. -/
def isNull (s : String) : Bool := ["null", "Null", "NULL", "~"].contains s

/-- A truth value. -/
def bool? (s : String) : Option Bool :=
  if ["true", "True", "TRUE"].contains s then some true
  else if ["false", "False", "FALSE"].contains s then some false
  else none

/-- The value of a digit in a base of at most sixteen. -/
def digitIn? (base : Nat) (c : Char) : Option Nat := (hexDigit? c).filter (· < base)

/-- The number that digits write in a base; there must be one. -/
def naturalIn? (base : Nat) (cs : List Char) : Option Nat :=
  if cs.isEmpty then none
  else cs.foldlM (fun n c => (digitIn? base c).map (base * n + ·)) 0

/-- The base that a lead of two characters announces, and the digits after it. -/
def basedDigits? : List Char → Option (Nat × List Char)
  | '0' :: 'x' :: cs => some (16, cs)
  | '0' :: 'o' :: cs => some (8, cs)
  | '0' :: 'b' :: cs => some (2, cs)
  | _ => none

/-- Digits with a leading zero, which are a text. -/
def isPaddedNumber (cs : List Char) : Bool :=
  let digits := match cs with
    | '-' :: rest | '+' :: rest => rest
    | _ => cs
  match digits with
  | '0' :: d :: rest => (d :: rest).all Char.isDigit
  | _ => false

/-- An integer and its sign, in base ten unless a lead says otherwise. -/
def integer? (cs : List Char) : Option (Bool × Nat) :=
  let (negative, body) := match cs with
    | '-' :: rest => (true, rest)
    | '+' :: rest => (false, rest)
    | _ => (false, cs)
  let based := basedDigits? body >>= fun (base, digits) => naturalIn? base digits
  match based with
  | some n => some (negative, n)
  | none => if isPaddedNumber cs then none else (naturalIn? 10 body).map (negative, ·)

/-- An integer of 64 bits. One of up to 128 bits is refused, and a longer one is
none. -/
def int64? (cs : List Char) : Except Problem (Option Int) :=
  match integer? cs with
  | none => .ok none
  | some (negative, n) =>
    if negative then
      if n ≤ Nat.pow 2 63 then .ok (some (-(n : Int)))
      else if n ≤ Nat.pow 2 127 then .error .integerRange else .ok none
    else
      if n < Nat.pow 2 64 then .ok (some n)
      else if n < Nat.pow 2 128 then .error .integerRange else .ok none

/-- A decimal fraction: digits, perhaps with a point and an exponent. `none` inside
stands for an infinity or for what is no number. -/
def fraction? (cs : List Char) : Option (Option Decimal) :=
  let s := String.ofList cs
  let (negative, body) := match cs with
    | '-' :: rest => (true, rest)
    | '+' :: rest => (false, rest)
    | _ => (false, cs)
  if [".inf", ".Inf", ".INF"].contains (String.ofList body) || [".nan", ".NaN", ".NAN"].contains s then
    some none
  else
    let whole := body.takeWhile Char.isDigit
    let afterWhole := body.drop whole.length
    let (part, afterPart) := match afterWhole with
      | '.' :: rest => (rest.takeWhile Char.isDigit, rest.dropWhile Char.isDigit)
      | _ => ([], afterWhole)
    let exponent : Option Int := match afterPart with
      | [] => some 0
      | e :: rest =>
        if e = 'e' || e = 'E' then
          match rest with
          | '-' :: digits => (naturalIn? 10 digits).map fun n => -(n : Int)
          | '+' :: digits => (naturalIn? 10 digits).map fun n => (n : Int)
          | digits => (naturalIn? 10 digits).map fun n => (n : Int)
        else none
    match exponent, naturalIn? 10 (whole ++ part) with
    | some e, some digits =>
      (Decimal.ofScientific? negative digits (e - part.length)).map some
    | _, _ => none

/-- A decimal fraction as a tree; infinities are null. -/
def fractionJson (x : Option Decimal) : Json :=
  match x with
  | some d => .float d
  | none => .null

/-- What a plain scalar without a tag stands for. -/
def plainValue (s : String) : Except Problem Json := do
  if s = "" || isNull s then return .null
  if let some b := bool? s then return .bool b
  if let some n ← int64? s.toList then return .int n
  if !isPaddedNumber s.toList then
    if let some x := fraction? s.toList then return fractionJson x
  return .str s

/-- The core tag with this name. -/
def coreTag (name : String) : TagAddress := .ofString ("tag:yaml.org,2002:" ++ name)

/-- Whether a tag is not one of a published vocabulary: its address begins with an
exclamation mark. -/
def TagAddress.isLocal (t : TagAddress) : Bool := (TagAddress.ofString "!").isPrefixOf t

/-- Whether a tag names a type of the user's own: it is local and its name is a text. -/
def TagAddress.isCustom (t : TagAddress) : Bool :=
  t.isLocal && (String.fromUTF8? ⟨t.toArray⟩).isSome

/-- What a scalar stands for. A local tag without a name that can be read is passed
over; other unknown tags make texts of plain scalars. -/
def scalarValue (s : String) (style : Style) (tag : Option TagAddress) :
    Except Problem Json := do
  match tag with
  | none => if style = .plain then plainValue s else return .str s
  | some t =>
    if t.isCustom then throw .customTag
    else if t = coreTag "bool" then
      match bool? s with
      | some b => return .bool b
      | none => throw .tagMismatch
    else if t = coreTag "int" then
      match ← int64? s.toList with
      | some n => return .int n
      | none => throw .tagMismatch
    else if t = coreTag "float" then
      match fraction? s.toList with
      | some x => return fractionJson x
      | none => throw .tagMismatch
    else if t = coreTag "null" then
      if isNull s then return .null else throw .tagMismatch
    else if t.isLocal && style = .plain then plainValue s
    else return .str s

/-! ### Trees -/

mutual

/-- The number of parts of a node: one for a scalar or a reference, and for a
collection two and those of its members. -/
def Node.parts : Node → Nat
  | .scalar _ _ _ | .alias _ => 1
  | .list _ items => 2 + partsOfItems items
  | .table _ entries => 2 + partsOfEntries entries

/-- The parts of several nodes. -/
def partsOfItems : List Node → Nat
  | [] => 0
  | n :: rest => n.parts + partsOfItems rest

/-- The parts of keys and values. -/
def partsOfEntries : List (Node × Node) → Nat
  | [] => 0
  | (k, v) :: rest => k.parts + v.parts + partsOfEntries rest

end

/-- How deep lists and tables may be nested. -/
def maxDepth : Nat := 128

/-- Following references and counting them. -/
abbrev Follow := StateT Nat (Except Problem)

/-- The node behind a reference, or the node itself. -/
def Document.follow (d : Document) (limit : Nat) (n : Node) : Follow Node := do
  match n with
  | .alias number =>
    let count := (← get) + 1
    if limit < count then throw .tooManyReferences
    set count
    match d.target? number with
    | some target => return target
    | none => throw .unknownAnchor
  | n => return n

/-- The text of a key. -/
def Document.key (d : Document) (limit : Nat) (n : Node) : Follow String := do
  match ← d.follow limit n with
  | .scalar text _ _ => return text
  | _ => throw .badKey

/-- A tag of the user's own is refused. -/
def checkTag (tag : Option TagAddress) : Follow Unit :=
  if tag.any TagAddress.isCustom then throw .customTag else return

/-- The tree of a node, with so many levels of nesting left. -/
def Document.value (d : Document) (limit : Nat) : Nat → Node → Follow Json
  | depth, n => do
    match ← d.follow limit n with
    | .scalar text style tag => scalarValue text style tag
    | .alias _ => throw .unknownAnchor
    | .list tag items =>
      checkTag tag
      match depth with
      | 0 => throw .tooDeep
      | depth + 1 => return .arr (← items.mapM (Document.value d limit depth))
    | .table tag entries =>
      checkTag tag
      match depth with
      | 0 => throw .tooDeep
      | depth + 1 =>
        let entries ← entries.mapM fun e => do
          let key ← d.key limit e.1
          let value ← Document.value d limit depth e.2
          return (key, value)
        return Json.ofEntries entries

/-- The tree that a text writes. A text without a document is null. -/
def load (text : String) : Except Problem Json := do
  let d ← document text.toList
  match d.root with
  | none => return .null
  | some root => (d.value (100 * root.parts) maxDepth root).run' 0

end Bindery.Yaml
