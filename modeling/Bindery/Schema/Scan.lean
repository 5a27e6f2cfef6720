import Bindery.Schema.Phrase

/-!
# Scanning schema text

The scanner goes through a text line by line. Comments are cut off first.
Outside a definition a line may declare a namespace or open a definition; inside
one it adds values or fields until the braces balance. Text after a closing brace
on the same line is not looked at.
-/

namespace Bindery.Schema

open Text

/-- A definition whose closing brace has not been seen. -/
structure Unclosed where
  name : String
  type : TypeDef
  /-- Opening braces less closing braces. -/
  depth : Int
  /-- Whether an opening brace has been seen. -/
  entered : Bool
  /-- The number that the next value of an enumeration gets by default. It is one more than the
  last one, also where that is the greatest number of 64 bits. -/
  next : Int
deriving DecidableEq, Repr

/-- What is known after some lines. -/
structure Scan where
  scope : String := ""
  /-- Definitions in order of appearance, repetitions included. -/
  found : List (String × TypeDef) := []
  unclosed : Option Unclosed := none
deriving DecidableEq, Repr

/-- The qualified name of a type. -/
def qualifiedName (scope name : String) : String :=
  if scope = "" then name else scope ++ "." ++ name

/-- A line without its comment. -/
def withoutComment (line : List Char) : List Char := beforeFirst ['/', '/'] line

/-- How many more braces a line opens than it closes. -/
def braceBalance (line : List Char) : Int :=
  (line.count '\x7b' : Int) - line.count '\x7d'

/-- The part of a line before its first closing brace. -/
def beforeClose (line : List Char) : List Char := line.takeWhile (· ≠ '\x7d')

/-- The part of a line after its first opening brace. -/
def afterOpen (line : List Char) : List Char := (line.dropWhile (· ≠ '\x7b')).drop 1

namespace Unclosed

/-- Adds the values or fields of a piece of a body. -/
def addBody (u : Unclosed) (body : List Char) : Unclosed :=
  match u.type.kind with
  | .enum =>
    let values := numberFrom u.next (enumItems body)
    { u with
      type := { u.type with values := u.type.values ++ values }
      next := nextNumber u.next values }
  | .struct | .table => { u with type := { u.type with fields := u.type.fields ++ fieldsIn body } }
  | .union => u

/-- Opens a definition with the rest of its first line. -/
def ofHeader (scope : String) (h : Header) (line : List Char) : Unclosed :=
  let type : TypeDef :=
    { kind := h.kind
      scope
      base := if h.kind = .enum then some ((h.base >>= Primitive.ofSchema?).getD .int32) else none }
  let u : Unclosed :=
    { name := qualifiedName scope h.name
      type
      depth := braceBalance line
      entered := line.contains '\x7b'
      next := 0 }
  u.addBody (beforeClose (afterOpen line))

/-- Goes on with a further line. -/
def addLine (u : Unclosed) (line : List Char) : Unclosed :=
  { u with
    depth := u.depth + braceBalance line
    entered := u.entered || line.contains '\x7b' }.addBody (beforeClose line)

/-- Whether every opened brace is closed. -/
def isClosed (u : Unclosed) : Bool := u.entered && u.depth ≤ 0

end Unclosed

namespace Scan

/-- Puts a definition among the found ones if it is closed. -/
def settle (s : Scan) (u : Unclosed) : Scan :=
  if u.isClosed then { s with found := s.found ++ [(u.name, u.type)], unclosed := none }
  else { s with unclosed := some u }

/-- Goes on with a line that holds no comment. -/
def addLine (s : Scan) (line : List Char) : Scan :=
  match s.unclosed with
  | some u => s.settle (u.addLine line)
  | none =>
    match namespaceOf? line with
    | some scope => { s with scope }
    | none =>
      match headerOf? line with
      | some h => s.settle (.ofHeader s.scope h line)
      | none => s

/-- The definitions found. One that is still open counts. -/
def definitions (s : Scan) : List (String × TypeDef) :=
  s.found ++ (s.unclosed.map fun u => (u.name, u.type)).toList

end Scan

/-- The definitions of a text in order of appearance, repetitions included. -/
def definitionsIn (text : String) : List (String × TypeDef) :=
  ((lines text).foldl (fun s l => s.addLine (withoutComment l.toList)) ({} : Scan)).definitions

end Bindery.Schema
