/-!
# Tokens of YAML

A text is cut into tokens before its structure is looked at. Indentation has
become tokens already: `blockListStart`, `blockTableStart` and `blockEnd` stand
where a block begins and ends, and `key` stands before whatever turned out to be
the key of a table.
-/

namespace Bindery.Yaml

/-- Why a text is not accepted. -/
inductive Problem where
  /-- A character that may not occur at all. -/
  | controlCharacter
  /-- A character that cannot start a token here. -/
  | strayCharacter
  /-- A tab where blanks are expected. -/
  | tab
  /-- An entry, key or value where none may stand. -/
  | misplaced
  /-- A text at the beginning of a line that had to be a key. -/
  | missingColon
  | badDirective
  | badAnchor
  | badTag
  | badBlockHeader
  | badEscape
  /-- A quoted text that is not closed. -/
  | unclosedQuote
  /-- A token that does not fit the structure. -/
  | unexpectedToken
  | unknownAnchor
  /-- More than one document. -/
  | severalDocuments
  /-- Lists and tables nested too deeply. -/
  | tooDeep
  /-- References followed too often. -/
  | tooManyReferences
  /-- A tag of the user's own. -/
  | customTag
  /-- A scalar that is not what its tag says. -/
  | tagMismatch
  /-- A key that is no scalar. -/
  | badKey
  /-- An integer outside of 64 bits. -/
  | integerRange
deriving DecidableEq, Repr

/-- The address that a tag stands for, in bytes: escapes may write any byte but zero,
at which an address ends. -/
abbrev TagAddress := List UInt8

/-- The address that a text writes. -/
def TagAddress.ofString (s : String) : TagAddress := s.toUTF8.data.toList

/-- How a scalar is written. -/
inductive Style where
  | plain
  /-- Quoted or as a block. -/
  | explicit
deriving DecidableEq, Repr

/-- A token. -/
inductive Token where
  | versionDirective (major minor : Nat)
  | tagDirective (handle : String) (lead : TagAddress)
  /-- Three dashes. -/
  | documentStart
  /-- Three dots. -/
  | documentEnd
  | blockListStart
  | blockTableStart
  | blockEnd
  | flowListStart
  | flowListEnd
  | flowTableStart
  | flowTableEnd
  | blockEntry
  | flowEntry
  | key
  | value
  | alias (name : String)
  | anchor (name : String)
  | tag (handle : String) (suffix : TagAddress)
  | scalar (text : String) (style : Style)
  | streamEnd
deriving DecidableEq, Repr

end Bindery.Yaml
