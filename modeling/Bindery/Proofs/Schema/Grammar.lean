import Bindery.Schema.Resolve

/-!
# The schema language

A schema is a sequence of declarations: namespaces, and definitions of enumerations, structs, tables
and unions. They are written here with all the freedom that the language leaves: blanks between
tokens, several values or fields on a line, definitions on one line or on many. So a declaration is
what is written, and its text and its meaning are two functions of it:

* `Declaration.lines`, `text` — the lines of a declaration and the text of several;
* `Definition.type`, `declared` — the types that are defined, under their qualified names.

What a declaration is made of carries the proof that it can be told from what follows it.
-/

namespace Bindery.Schema.Source

/-! ### Blanks, names, numbers -/

/-- Whether a character may stand between tokens. -/
def isGap (c : Char) : Bool := c = ' ' || c = '\t'

/-- Spaces and tabs between tokens. -/
structure Gap where
  chars : List Char := []
  blank : ∀ c ∈ chars, isGap c = true := by exact List.all_eq_true.mp rfl

/-- A name whose first character is in one class and whose others are in another. -/
structure Name (first rest : Char → Bool) where
  head : Char
  tail : List Char := []
  isFirst : first head = true := by decide
  isRest : ∀ c ∈ tail, rest c = true := by exact List.all_eq_true.mp rfl

/-- The characters of a name. -/
def Name.chars {first rest : Char → Bool} (n : Name first rest) : List Char := n.head :: n.tail

/-- The text of a name. -/
def Name.text {first rest : Char → Bool} (n : Name first rest) : String := .ofList n.chars

/-- Whether a character can begin the name of a field. -/
def isFieldStart (c : Char) : Bool := c.isLower || c = '_'

/-- The name of a namespace, with dots. -/
abbrev ScopeName := Name Char.isAlpha isDottedTail

/-- The name of a definition in its namespace. -/
abbrev LocalName := Name Char.isUpper Char.isAlphanum

/-- The word that an enumeration names as its scalar. -/
abbrev BaseName := Name isNameTail isNameTail

/-- The name of a value. -/
abbrev ValueName := Name isNameStart isNameTail

/-- The name of a field. -/
abbrev FieldName := Name isFieldStart isNameTail

/-- The name of a type where it is used: a scalar, a text, or a definition with or without its
namespace. -/
abbrev Reference := Name isNameStart isDottedTail

/-- The value of decimal digits behind a sign. -/
def signedValue (negative : Bool) (digits : List Char) : Int :=
  if negative then -(digitsValue digits : Int) else digitsValue digits

/-- A decimal number in the range of 64-bit integers. -/
structure Number where
  negative : Bool := false
  digits : List Char
  nonempty : digits ≠ [] := by decide
  decimal : ∀ c ∈ digits, c.isDigit = true := by exact List.all_eq_true.mp rfl
  inRange : Int64.minValue.toInt ≤ signedValue negative digits ∧
    signedValue negative digits ≤ Int64.maxValue.toInt := by decide

/-- The text of a number. -/
def Number.chars (n : Number) : List Char := if n.negative then '-' :: n.digits else n.digits

def Number.value (n : Number) : Int := signedValue n.negative n.digits

/-! ### Values of enumerations -/

/-- A value of an enumeration, with the number that it names, if it names one. -/
structure Enumerator where
  lead : Gap := {}
  name : ValueName
  behind : Gap := {}
  /-- The number and the blanks around it. -/
  number : Option (Gap × Number × Gap) := none

def Enumerator.chars (e : Enumerator) : List Char :=
  e.lead.chars ++ (e.name.chars ++ (e.behind.chars ++
    match e.number with
    | none => []
    | some (before, n, after) => '=' :: (before.chars ++ (n.chars ++ after.chars))))

/-- The number that a value names. -/
def Enumerator.number? (e : Enumerator) : Option Int := e.number.map fun n => n.2.1.value

/-- What stands between commas. -/
inductive Piece where
  | blank (gap : Gap)
  | value (e : Enumerator)

def Piece.chars : Piece → List Char
  | blank gap => gap.chars
  | value e => e.chars

/-- The value that a piece is. -/
def Piece.enumerator? : Piece → Option Enumerator
  | blank _ => none
  | value e => some e

/-- **Values are numbered in order**: each by the number that it names, or else by one more than the
value before. What comes behind the greatest number that can be named is counted on. -/
def valuesFrom : Int → List Enumerator → List EnumValue
  | _, [] => []
  | next, e :: rest =>
    let value := e.number?.getD next
    ⟨e.name.text, value⟩ :: valuesFrom (value + 1) rest

/-- The number for a value behind these that names none. -/
def numberAfter : Int → List Enumerator → Int
  | next, [] => next
  | next, e :: rest => numberAfter (e.number?.getD next + 1) rest

/-! ### Fields of records -/

/-- A text that no brace, line break or comment is in. -/
structure FreeText where
  chars : List Char := []
  unopened : '\x7b' ∉ chars := by decide
  unclosed : '\x7d' ∉ chars := by decide
  unbroken : '\n' ∉ chars := by decide
  uncommented : ¬ ['/', '/'] <:+: chars := by decide

/-- The spelling of a field's type. -/
inductive Spelling where
  | plain (name : Reference)
  | vector (before : Gap) (element : Reference) (behind : Gap)

def Spelling.chars : Spelling → List Char
  | plain name => name.chars
  | vector before element behind =>
    '[' :: (before.chars ++ (element.chars ++ (behind.chars ++ [']'])))

/-- **The type that a name stands for**: a text, a scalar under one of its spellings, or a reference
as it is written. -/
def Reference.type (n : Reference) : FieldType :=
  if n.text = "string" then .string
  else match Primitive.ofSchema? n.text with
    | some p => .primitive p
    | none => .named n.text

def Spelling.type : Spelling → FieldType
  | plain name => Reference.type name
  | vector _ element _ => .vector (Reference.type element)

/-- A field up to its semicolon. Behind its type there may be a default, as in `= 3`, and attributes
in parentheses, or any other text that does not go on with the type. -/
structure FieldText where
  lead : Gap := {}
  name : FieldName
  beforeColon : Gap := {}
  afterColon : Gap := {}
  type : Spelling
  extra : FreeText := {}
  apart : extra.chars.head?.any isDottedTail = false := by rfl
  unended : ';' ∉ extra.chars := by decide

/-- The text behind the blanks in front of a field. -/
def FieldText.body (f : FieldText) : List Char :=
  f.name.chars ++ (f.beforeColon.chars ++ ':' :: (f.afterColon.chars ++
    (f.type.chars ++ (f.extra.chars ++ [';']))))

def FieldText.chars (f : FieldText) : List Char := f.lead.chars ++ f.body

/-- The field itself. -/
def FieldText.field (f : FieldText) : Field := ⟨f.name.text, f.type.type⟩

/-! ### Definitions -/

/-- What stands on one line of a body. -/
inductive BodyLine where
  /-- Values and blanks between commas. -/
  | values (pieces : List Piece)
  /-- Fields and the blanks behind them. -/
  | fields (fields : List FieldText) (behind : Gap)
  /-- The members of a union, which are not looked at. -/
  | members (text : FreeText) (unreturned : text.chars.getLast? ≠ some '\r' := by decide)

namespace BodyLine

def chars : BodyLine → List Char
  | values pieces => [','].intercalate (pieces.map Piece.chars)
  | fields fs behind => fs.flatMap FieldText.chars ++ behind.chars
  | members text _ => text.chars

/-- Which lines the body of a definition can have. -/
def Suits (kind : TypeKind) : BodyLine → Prop
  | values _ => kind = .enum
  | fields _ _ => kind = .struct ∨ kind = .table
  | members _ _ => kind = .union

instance (kind : TypeKind) : (l : BodyLine) → Decidable (l.Suits kind)
  | values _ => inferInstanceAs (Decidable (kind = .enum))
  | fields _ _ => inferInstanceAs (Decidable (kind = .struct ∨ kind = .table))
  | members _ _ => inferInstanceAs (Decidable (kind = .union))

/-- The values on a line. -/
def enumerators : BodyLine → List Enumerator
  | values pieces => pieces.filterMap Piece.enumerator?
  | fields _ _ | members _ _ => []

/-- The fields on a line. -/
def fieldList : BodyLine → List Field
  | fields fs _ => fs.map FieldText.field
  | values _ | members _ _ => []

end BodyLine

/-- A definition. Its first line has the opening brace on it, and the closing brace ends its last
line, which may be the same. -/
structure Definition where
  kind : TypeKind
  lead : Gap := {}
  /-- The blanks behind the keyword. -/
  apart : Gap := { chars := [' '] }
  isApart : apart.chars ≠ [] := by decide
  name : LocalName
  /-- The word behind a colon and the blanks around the colon. -/
  base : Option (Gap × Gap × BaseName) := none
  behind : Gap := { chars := [' '] }
  /-- What stands behind the opening brace. -/
  first : BodyLine
  /-- What stands on the lines after that. -/
  more : List BodyLine := []
  suits : ∀ l ∈ first :: more, l.Suits kind := by decide
  ending : Gap := {}

namespace Definition

/-- The text between the name and the opening brace. -/
def baseText (d : Definition) : List Char :=
  match d.base with
  | none => d.behind.chars
  | some (before, after, word) =>
    before.chars ++ ':' :: (after.chars ++ (word.chars ++ d.behind.chars))

/-- The text before the opening brace. -/
def header (d : Definition) : List Char :=
  d.lead.chars ++ (d.kind.name.toList ++ (d.apart.chars ++ (d.name.chars ++ d.baseText)))

/-- The lines from a line that may be the last one. -/
def linesFrom (ending : Gap) : List Char → List BodyLine → List (List Char)
  | line, [] => [line ++ '\x7d' :: ending.chars]
  | line, l :: more => line :: linesFrom ending l.chars more

def lines (d : Definition) : List (List Char) :=
  linesFrom d.ending (d.header ++ '\x7b' :: d.first.chars) d.more

/-- The scalar of an enumeration: the one that it names, or `int32` where it names none. -/
def scalar (d : Definition) : Primitive :=
  ((d.base.map fun b => b.2.2.text) >>= Primitive.ofSchema?).getD .int32

/-- **The type that is defined** in a namespace. -/
def type (d : Definition) (scope : String) : TypeDef where
  kind := d.kind
  scope
  base := if d.kind = .enum then some d.scalar else none
  values := valuesFrom 0 ((d.first :: d.more).flatMap BodyLine.enumerators)
  fields := (d.first :: d.more).flatMap BodyLine.fieldList

end Definition

/-! ### Schemas -/

/-- The declaration of a namespace. -/
structure ScopeText where
  lead : Gap := {}
  apart : Gap := { chars := [' '] }
  isApart : apart.chars ≠ [] := by decide
  name : ScopeName
  behind : Gap := {}
  ending : Gap := {}

def ScopeText.chars (s : ScopeText) : List Char :=
  s.lead.chars ++ ("namespace".toList ++ (s.apart.chars ++ (s.name.chars ++
    (s.behind.chars ++ ';' :: s.ending.chars))))

/-- What a schema consists of. -/
inductive Declaration where
  /-- A line without anything on it. -/
  | blank (gap : Gap)
  | scope (s : ScopeText)
  | type (d : Definition)

def Declaration.lines : Declaration → List (List Char)
  | blank gap => [gap.chars]
  | scope s => [s.chars]
  | type d => d.lines

/-- **The text of declarations**, line by line. -/
def text (ds : List Declaration) : String :=
  .ofList (['\n'].intercalate (ds.flatMap Declaration.lines))

/-- The namespace behind declarations. -/
def scopeAfter (scope : String) : List Declaration → String
  | [] => scope
  | .scope s :: rest => scopeAfter s.name.text rest
  | .blank _ :: rest | .type _ :: rest => scopeAfter scope rest

/-- **The types that declarations define**, in order, each under the namespace that was declared
last. -/
def declared (scope : String) : List Declaration → List (String × TypeDef)
  | [] => []
  | .blank _ :: rest => declared scope rest
  | .scope s :: rest => declared s.name.text rest
  | .type d :: rest =>
    (qualifiedName scope d.name.text, d.type scope) :: declared scope rest

end Bindery.Schema.Source
