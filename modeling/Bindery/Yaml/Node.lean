import Bindery.Yaml.Lexer

/-!
# From tokens to a document

The tokens of a text are read into one `Node`: a scalar, a list, a table, or a
reference to an anchored node. Anchors are numbered as they appear; a number is
the count of different names seen before, so a name that is used again can share
its number with a later one, and the latest node under a number is the one that
references reach.
-/

namespace Bindery.Yaml

/-- A document as it is written. -/
inductive Node where
  | scalar (text : String) (style : Style) (tag : Option TagAddress)
  | list (tag : Option TagAddress) (items : List Node)
  | table (tag : Option TagAddress) (entries : List (Node × Node))
  /-- A reference to an anchor by its number. -/
  | alias (number : Nat)

namespace Node

/-- A scalar that is not there. -/
def empty : Node := scalar "" .plain none

/-- An anchored node. -/
structure Anchored where
  number : Nat
  /-- When the anchor was met. -/
  order : Nat
  node : Node

/-- What the reader carries along. -/
structure Reader where
  tokens : List Token
  /-- Numbers of anchors by name. -/
  numbers : List (String × Nat) := []
  /-- How many anchors were met. -/
  met : Nat := 0
  anchored : List Anchored := []
  /-- What tag handles stand for. -/
  tagLeads : List (String × TagAddress) := []

/-- Reading from tokens. -/
abbrev Read := StateT Reader (Except Problem)

/-- The next token. At the end of the tokens the text has ended. -/
def peek : Read Token := do
  return (← get).tokens.headD .streamEnd

/-- Passes over a token. -/
def skip : Read Unit := modify fun r => { r with tokens := r.tokens.drop 1 }

/-- Gives up at a token that does not fit. -/
def unexpected {α : Type} : Read α := throw .unexpectedToken

/-- The number of an anchor that is met under a name. -/
def meetAnchor (name : String) : Read (Nat × Nat) := do
  let r ← get
  let number := r.numbers.length
  let numbers := (name, number) :: r.numbers.filter fun e => e.1 ≠ name
  set { r with numbers, met := r.met + 1 }
  return (number, r.met)

/-- Notes an anchored node once it is read. -/
def note (place : Option (Nat × Nat)) (node : Node) : Read Node := do
  match place with
  | some (number, order) =>
    modify fun r => { r with anchored := ⟨number, order, node⟩ :: r.anchored }
  | none => pure ()
  return node

/-- The full tag that a handle and a suffix stand for. -/
def fullTag (handle : String) (suffix : TagAddress) : Read TagAddress := do
  if handle = "" then return suffix
  match (← get).tagLeads.find? fun e => e.1 == handle with
  | some (_, lead) => return lead ++ suffix
  | none => throw .badTag

/-- Reads an anchor and a tag in either order, each at most once. -/
def properties : Read (Option (Nat × Nat) × Option TagAddress) := do
  match ← peek with
  | .anchor name =>
    skip
    let place ← meetAnchor name
    match ← peek with
    | .tag handle suffix =>
      skip
      return (some place, some (← fullTag handle suffix))
    | _ => return (some place, none)
  | .tag handle suffix =>
    skip
    match ← peek with
    | .anchor name =>
      skip
      let tag ← fullTag handle suffix
      return (some (← meetAnchor name), some tag)
    | _ => return (none, some (← fullTag handle suffix))
  | _ => return (none, none)

/-- Where an empty scalar may stand for a value. -/
def endsValue (inFlow : Bool) (t : Token) : Bool :=
  if inFlow then [Token.flowEntry, .flowListEnd, .flowTableEnd].contains t
  else [Token.key, .value, .blockEnd].contains t

mutual

/-- Reads a node. In a block, block collections may begin; as a value in a table a
list may also begin without indentation. -/
def read (fuel : Nat) (inBlock unindented : Bool) : Read Node :=
  match fuel with
  | 0 => throw .tooDeep
  | fuel + 1 => do
    if let .alias name ← peek then
      skip
      match (← get).numbers.find? fun e => e.1 == name with
      | some (_, number) => return .alias number
      | none => throw .unknownAnchor
    let (place, tag) ← properties
    match ← peek with
    | .blockEntry =>
      if unindented then note place (.list tag (← unindentedItems fuel))
      else if place.isSome || tag.isSome then note place (.scalar "" .plain tag)
      else unexpected
    | .scalar text style =>
      skip
      note place (.scalar text style tag)
    | .flowListStart =>
      skip
      note place (.list tag (← flowItems fuel true))
    | .flowTableStart =>
      skip
      note place (.table tag (← flowEntries fuel true))
    | .blockListStart =>
      if inBlock then
        skip
        note place (.list tag (← blockItems fuel))
      else if place.isSome || tag.isSome then note place (.scalar "" .plain tag)
      else unexpected
    | .blockTableStart =>
      if inBlock then
        skip
        note place (.table tag (← blockEntries fuel))
      else if place.isSome || tag.isSome then note place (.scalar "" .plain tag)
      else unexpected
    | _ =>
      if place.isSome || tag.isSome then note place (.scalar "" .plain tag)
      else unexpected

/-- Reads the items of a list in a block. -/
def blockItems (fuel : Nat) : Read (List Node) :=
  match fuel with
  | 0 => throw .tooDeep
  | fuel + 1 => do
    match ← peek with
    | .blockEntry =>
      skip
      let t ← peek
      let item ←
        if t = .blockEntry || t = .blockEnd then pure empty else read fuel true false
      return item :: (← blockItems fuel)
    | .blockEnd =>
      skip
      return []
    | _ => unexpected

/-- Reads the items of a list that is not indented. -/
def unindentedItems (fuel : Nat) : Read (List Node) :=
  match fuel with
  | 0 => throw .tooDeep
  | fuel + 1 => do
    match ← peek with
    | .blockEntry =>
      skip
      let t ← peek
      let item ←
        if t = .blockEntry || endsValue false t then pure empty else read fuel true false
      return item :: (← unindentedItems fuel)
    | _ => return []

/-- Reads the entries of a table in a block. -/
def blockEntries (fuel : Nat) : Read (List (Node × Node)) :=
  match fuel with
  | 0 => throw .tooDeep
  | fuel + 1 => do
    match ← peek with
    | .key =>
      skip
      let key ← if endsValue false (← peek) then pure empty else read fuel true true
      let value ← blockValue fuel
      return (key, value) :: (← blockEntries fuel)
    | .blockEnd =>
      skip
      return []
    | _ => unexpected

/-- Reads the value after a key in a block. -/
def blockValue (fuel : Nat) : Read Node :=
  match fuel with
  | 0 => throw .tooDeep
  | fuel + 1 => do
    match ← peek with
    | .value =>
      skip
      if endsValue false (← peek) then return empty else read fuel true true
    | _ => return empty

/-- Reads the items of a flow list; all but the first follow a comma. A key makes a
table of one entry. -/
def flowItems (fuel : Nat) (first : Bool) : Read (List Node) :=
  match fuel with
  | 0 => throw .tooDeep
  | fuel + 1 => do
    if (← peek) = .flowListEnd then
      skip
      return []
    if !first then
      if (← peek) = .flowEntry then skip else unexpected
    match ← peek with
    | .flowListEnd =>
      skip
      return []
    | .key =>
      skip
      let t ← peek
      let key ←
        if t = .value || t = .flowEntry || t = .flowListEnd then
          skip
          pure empty
        else read fuel false false
      let value ←
        if (← peek) = .value then
          skip
          let t ← peek
          if t = .flowEntry || t = .flowListEnd then pure empty else read fuel false false
        else pure empty
      return .table none [(key, value)] :: (← flowItems fuel false)
    | _ =>
      let item ← read fuel false false
      return item :: (← flowItems fuel false)

/-- Reads the entries of a flow table; all but the first follow a comma. -/
def flowEntries (fuel : Nat) (first : Bool) : Read (List (Node × Node)) :=
  match fuel with
  | 0 => throw .tooDeep
  | fuel + 1 => do
    if (← peek) = .flowTableEnd then
      skip
      return []
    if !first then
      if (← peek) = .flowEntry then skip else unexpected
    match ← peek with
    | .flowTableEnd =>
      skip
      return []
    | .key =>
      skip
      let t ← peek
      let key ←
        if t = .value || t = .flowEntry || t = .flowTableEnd then pure empty
        else read fuel false false
      let value ←
        if (← peek) = .value then
          skip
          let t ← peek
          if t = .flowEntry || t = .flowTableEnd then pure empty else read fuel false false
        else pure empty
      return (key, value) :: (← flowEntries fuel false)
    | _ =>
      let key ← read fuel false false
      return (key, empty) :: (← flowEntries fuel false)

end

/-! ### Documents -/

/-- What the tag handles of every document stand for. -/
def defaultLeads : List (String × TagAddress) :=
  [("!", .ofString "!"), ("!!", .ofString "tag:yaml.org,2002:")]

/-- Reads the directives before a document: one version at most, and each handle
once. -/
def directives :
    Nat → Bool → List (String × TagAddress) → Read (List (String × TagAddress))
  | 0, _, leads => return leads
  | fuel + 1, versioned, leads => do
    match ← peek with
    | .versionDirective major minor =>
      if versioned || major ≠ 1 || (minor ≠ 1 && minor ≠ 2) then throw .badDirective
      skip
      directives fuel true leads
    | .tagDirective handle lead =>
      if leads.any fun e => e.1 == handle then throw .badDirective
      skip
      directives fuel versioned (leads ++ [(handle, lead)])
    | _ => return leads

/-- Passes over the marks that end a document. -/
def skipEnds : Nat → Read Unit
  | 0 => return
  | fuel + 1 => do
    if (← peek) = .documentEnd then
      skip
      skipEnds fuel

/-- Whether a token cannot begin the content of a document. -/
def isOutside : Token → Bool
  | .versionDirective _ _ | .tagDirective _ _ | .documentStart | .documentEnd | .streamEnd => true
  | _ => false

/-- Reads the only document of a text, if it has one. -/
def document (size : Nat) : Read (Option Node) := do
  let t ← peek
  if t = .streamEnd then return none
  let implicit := match t with
    | .versionDirective _ _ | .tagDirective _ _ | .documentStart => false
    | _ => true
  let leads ← if implicit then pure [] else directives size false []
  modify fun r => { r with tagLeads := leads ++ defaultLeads }
  unless implicit do
    if (← peek) = .documentStart then skip else unexpected
  let node ←
    if !implicit && isOutside (← peek) then pure empty
    else read (2 * size + 2) true false
  skipEnds size
  if (← peek) = .streamEnd then return node else throw .severalDocuments

end Node

/-- A document and what its references reach. -/
structure Document where
  root : Option Node
  anchored : List Node.Anchored

/-- The document that a text writes. -/
def document (cs : List Char) : Except Problem Document := do
  let ts ← tokens cs
  let (root, r) ← (Node.document ts.length).run { tokens := ts }
  return ⟨root, r.anchored⟩

/-- The node that a reference reaches: the latest one under its number. -/
def Document.target? (d : Document) (number : Nat) : Option Node :=
  (d.anchored.foldl (fun best a =>
    if a.number = number && best.all fun (b : Node.Anchored) => b.order < a.order then some a
    else best) none).map (·.node)

end Bindery.Yaml
