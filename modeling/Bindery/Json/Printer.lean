import Bindery.Json.Basic
import Bindery.Text.Basic

/-!
# Printing document trees

The compact text of a tree: no blanks, entries in key order, characters beyond
ASCII as they are, and the short escapes for quotes, backslashes and control
characters.
-/

namespace Bindery.Json

/-- One character inside a quoted text. -/
def escapeChar (c : Char) : String :=
  if c = '"' then "\\\""
  else if c = '\\' then "\\\\"
  else if c = '\n' then "\\n"
  else if c = '\r' then "\\r"
  else if c = '\t' then "\\t"
  else if c = '\x08' then "\\b"
  else if c = '\x0c' then "\\f"
  else if c.toNat < 0x20 then "\\u" ++ Text.hex 4 c.toNat
  else c.toString

/-- A text between quotes. -/
def quote (s : String) : String :=
  (s.foldl (fun acc c => acc ++ escapeChar c) "\"") ++ "\""

mutual

/-- The compact text of a tree. -/
def compact : Json → String
  | null => "null"
  | bool true => "true"
  | bool false => "false"
  | int n => toString n
  | float x => x.toText
  | str s => quote s
  | arr items => "[" ++ compactItems items ++ "]"
  | obj entries => "\x7b" ++ compactEntries entries ++ "\x7d"

/-- The items of an array, separated by commas. -/
def compactItems : List Json → String
  | [] => ""
  | [x] => compact x
  | x :: y :: rest => compact x ++ "," ++ compactItems (y :: rest)

/-- The entries of an object, separated by commas. -/
def compactEntries : List (String × Json) → String
  | [] => ""
  | [(k, v)] => quote k ++ ":" ++ compact v
  | (k, v) :: e :: rest => quote k ++ ":" ++ compact v ++ "," ++ compactEntries (e :: rest)

end

end Bindery.Json
