import Bindery.Text.Basic
import Bindery.Vocabulary.Primitive

/-!
# References to types

A description names a type by a text of one of five forms: `string`, a buffer of
a numeric primitive, a handle, a primitive, or the qualified name of a schema
type. `TypeRef.ofString?` sorts a text into these forms and refuses all others.
-/

namespace Bindery

/-! ### Identifiers -/

/-- A Pascal-case identifier: an upper-case letter, then letters and digits. -/
def isPascalList : List Char → Bool
  | [] => false
  | c :: cs => c.isUpper && cs.all Char.isAlphanum

/-- A Pascal-case identifier: an upper-case letter, then letters and digits. -/
def isPascalIdentifier (s : String) : Bool := isPascalList s.toList

/-- A character that may follow the first one of a snake-case identifier. -/
def isSnakeTail (c : Char) : Bool := c.isLower || c.isDigit || c = '_'

/-- A snake-case identifier: a lower-case letter, then lower-case letters, digits
and underscores. -/
def isSnakeIdentifier (s : String) : Bool :=
  match s.toList with
  | [] => false
  | c :: cs => c.isLower && cs.all isSnakeTail

/-- The name of a schema type with its namespaces: Pascal-case identifiers
separated by dots. -/
def isQualifiedName (s : String) : Bool :=
  (Text.cutList '.' s.toList).all isPascalList

/-! ### The five forms -/

/-- A type as a description names it. -/
inductive TypeRef where
  | string
  | buffer (element : Primitive)
  | handle (name : String)
  | primitive (p : Primitive)
  /-- A schema type by its qualified name. -/
  | qualified (name : String)
deriving DecidableEq, Repr

namespace TypeRef

/-- The text between the angle brackets of a buffer type, whatever it is. -/
def bufferElement? (ty : String) : Option String :=
  Text.dropPrefix? "buffer<" ty >>= Text.dropSuffix? ">"

/-- Sorts the text of a type into one of the five forms. -/
def ofString? (ty : String) : Option TypeRef :=
  if ty = "string" then some .string
  else match bufferElement? ty with
  | some element => ((Primitive.ofName? element).filter Primitive.isBufferElement).map .buffer
  | none =>
    match Text.dropPrefix? "handle:" ty with
    | some name => if isPascalIdentifier name then some (.handle name) else none
    | none =>
      match Primitive.ofName? ty with
      | some p => some (.primitive p)
      | none => if isQualifiedName ty then some (.qualified ty) else none

/-- The name of the handle, if the type is one. -/
def handleName? : TypeRef → Option String
  | handle name => some name
  | _ => none

/-- The name of the schema type, if the type is one. -/
def qualifiedName? : TypeRef → Option String
  | qualified name => some name
  | _ => none

end TypeRef

end Bindery
