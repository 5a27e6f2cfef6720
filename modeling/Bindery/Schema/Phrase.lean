import Bindery.Schema.Basic
import Bindery.Text.Basic
import Bindery.Text.Word

/-!
# Phrases of the schema language

The scanner looks for four phrases, each inside one line:

* `namespace A.B ;` at the beginning of a line;
* `enum Name : base`, and likewise for structs, tables and unions, at the
  beginning of a line, where the base may be absent;
* `Name = 3`, a whole item of an enumeration, where the number may be absent;
* `name : type … ;`, a field, anywhere.

Since the classes of characters that follow one another never overlap, each
phrase is read from left to right without going back.
-/

namespace Bindery.Schema

open Text

/-- A letter of ASCII. -/
def isNameStart (c : Char) : Bool := c.isAlpha || c = '_'

/-- A letter or digit of ASCII, or an underscore. -/
def isNameTail (c : Char) : Bool := c.isAlphanum || c = '_'

/-- A character of a dotted name. -/
def isDottedTail (c : Char) : Bool := isNameTail c || c = '.'

/-- The text after leading blanks. -/
def skipBlanks (cs : List Char) : List Char := cs.dropWhile isBlank

/-- At least one blank, and all that follow. -/
def someBlanks? : List Char → Option (List Char)
  | [] => none
  | c :: cs => if isBlank c then some (skipBlanks cs) else none

/-- A name whose first character is in one class and whose others are in another,
as long as possible, and the text after it. -/
def name? (first rest : Char → Bool) : List Char → Option (List Char × List Char)
  | [] => none
  | c :: cs => if first c then some (c :: cs.takeWhile rest, cs.dropWhile rest) else none

/-! ### Namespaces and headers -/

/-- The namespace that a line declares. -/
def namespaceOf? (line : List Char) : Option String := do
  let cs ← dropPrefixList? "namespace".toList (skipBlanks line)
  let cs ← someBlanks? cs
  let (name, cs) ← name? Char.isAlpha isDottedTail cs
  match skipBlanks cs with
  | ';' :: _ => some (String.ofList name)
  | _ => none

/-- The first line of a definition. -/
structure Header where
  kind : TypeKind
  name : String
  /-- The word after the colon. -/
  base : Option String
deriving DecidableEq, Repr

/-- The keyword of a definition, and the text after it. -/
def keyword? (cs : List Char) : Option (TypeKind × List Char) :=
  [TypeKind.enum, .struct, .table, .union].findSome? fun k =>
    (dropPrefixList? k.name.toList cs).map (k, ·)

/-- The word after a colon, if there is one. -/
def baseOf? (cs : List Char) : Option String :=
  match skipBlanks cs with
  | ':' :: cs => (name? isWord isWord (skipBlanks cs)).map fun r => String.ofList r.1
  | _ => none

/-- The header with which a line begins. -/
def headerOf? (line : List Char) : Option Header := do
  let (kind, cs) ← keyword? (skipBlanks line)
  let cs ← someBlanks? cs
  let (name, cs) ← name? Char.isUpper Char.isAlphanum cs
  some ⟨kind, String.ofList name, baseOf? cs⟩

/-! ### Values of enumerations -/

/-- Reads decimal digits of ASCII. -/
def digitsValue (cs : List Char) : Nat :=
  cs.foldl (fun n c => 10 * n + (c.toNat - '0'.toNat)) 0

/-- A decimal number of ASCII digits in the range of 64-bit integers. -/
def int64Of? (negative : Bool) (digits : List Char) : Option Int :=
  if digits.all Char.isDigit then
    let n : Int := digitsValue digits
    let n := if negative then -n else n
    if Int64.minValue.toInt ≤ n ∧ n ≤ Int64.maxValue.toInt then some n else none
  else none

/-- An item of an enumeration: its name, and its number if it has one. -/
structure EnumItem where
  name : String
  number : Option Int
deriving DecidableEq, Repr

/-- The number after an equals sign and the text after it, in decimal digits of
any script; a number that is no 64-bit integer counts as absent. -/
def numberOf? (cs : List Char) : Option (Option Int × List Char) :=
  let cs := skipBlanks cs
  let (negative, cs) := match cs with
    | '-' :: rest => (true, rest)
    | _ => (false, cs)
  match cs.takeWhile isDecimalDigit with
  | [] => none
  | digits => some (int64Of? negative digits, cs.dropWhile isDecimalDigit)

/-- The item that a piece of text is, blanks aside. -/
def enumItemOf? (piece : List Char) : Option EnumItem := do
  let (name, cs) ← name? isNameStart isNameTail (skipBlanks piece)
  match skipBlanks cs with
  | [] => some ⟨String.ofList name, none⟩
  | '=' :: cs =>
    let (number, cs) ← numberOf? cs
    match skipBlanks cs with
    | [] => some ⟨String.ofList name, number⟩
    | _ => none
  | _ => none

/-- The items between commas. Pieces that are no items are passed over. -/
def enumItems (body : List Char) : List EnumItem :=
  (cutList ',' body).filterMap enumItemOf?

/-- Gives each item its number: the one it names, or one more than the item
before. The numbers have no bound here. They are those of a counter of 64 bits as long as no item
has the greatest such number, behind which there is no next one (`Source.countFrom?_eq`). -/
def numberFrom : Int → List EnumItem → List EnumValue
  | _, [] => []
  | next, item :: rest =>
    let value := item.number.getD next
    ⟨item.name, value⟩ :: numberFrom (value + 1) rest

/-- The number that an item after these would get. -/
def nextNumber (next : Int) (values : List EnumValue) : Int :=
  match values.getLast? with
  | some v => v.value + 1
  | none => next

/-! ### Fields -/

/-- What stands between the brackets, if anything does. -/
def bracketed? (cs : List Char) : Option (List Char) :=
  match dropPrefixList? ['['] cs with
  | none => none
  | some rest =>
    match rest.reverse with
    | ']' :: inner => some inner.reverse
    | _ => none

theorem length_dropPrefixList? {start cs rest : List Char}
    (h : dropPrefixList? start cs = some rest) : cs.length = start.length + rest.length := by
  induction start generalizing cs with
  | nil => simp_all [dropPrefixList?]
  | cons p ps ih =>
    cases cs with
    | nil => simp [dropPrefixList?] at h
    | cons c cs =>
      simp only [dropPrefixList?] at h
      split at h
      · have := ih h
        simp only [List.length_cons]; omega
      · simp at h

theorem length_bracketed? {cs inner : List Char} (h : bracketed? cs = some inner) :
    inner.length < cs.length := by
  unfold bracketed? at h
  split at h
  · simp at h
  · rename_i rest hrest
    have hlen := length_dropPrefixList? hrest
    split at h
    · rename_i rev hrev
      have : rest.length = rev.length + 1 := by
        rw [← List.length_reverse, hrev]; rfl
      cases h
      simp only [List.length_reverse, List.length_cons, List.length_nil] at *
      omega
    · simp at h

theorem length_dropWhile_le {p : Char → Bool} (cs : List Char) :
    (cs.dropWhile p).length ≤ cs.length :=
  (List.dropWhile_suffix p).length_le

theorem length_trimList_le (cs : List Char) : (trimList cs).length ≤ cs.length := by
  have h₁ := length_dropWhile_le (p := isBlank) cs
  have h₂ := length_dropWhile_le (p := isBlank) (cs.dropWhile isBlank).reverse
  simp only [trimList, List.length_reverse] at *
  omega

/-- The type that a text names: a vector in brackets, `string`, a scalar, or a
reference. -/
def FieldType.ofList (cs : List Char) : FieldType :=
  match _h : bracketed? cs with
  | some inner => .vector (FieldType.ofList (trimList inner))
  | none =>
    let s := String.ofList cs
    if s = "string" then .string
    else match Primitive.ofSchema? s with
    | some p => .primitive p
    | none => .named s
termination_by cs.length
decreasing_by
  have := length_bracketed? _h
  have := length_trimList_le inner
  omega

/-- The text up to and with a closing bracket, and the text after it. At least one
character stands before the bracket. -/
def closeBracket? (cs : List Char) : Option (List Char × List Char) :=
  match cs.dropWhile (· ≠ ']') with
  | ']' :: rest =>
    if cs.takeWhile (· ≠ ']') = [] then none
    else some (cs.takeWhile (· ≠ ']') ++ [']'], rest)
  | _ => none

/-- The text of a type: brackets around something, or a dotted name. -/
def typeText? : List Char → Option (List Char × List Char)
  | '[' :: cs => (closeBracket? cs).map fun r => ('[' :: r.1, r.2)
  | cs => name? isNameStart isDottedTail cs

/-- The text after the first character `c`. -/
def after? (c : Char) (cs : List Char) : Option (List Char) :=
  match cs.dropWhile (· ≠ c) with
  | _ :: rest => some rest
  | [] => none

/-- The text after a colon, blanks around it aside. -/
def colon? (cs : List Char) : Option (List Char) :=
  match skipBlanks cs with
  | ':' :: rest => some (skipBlanks rest)
  | _ => none

/-- The field at the very beginning of a text, and the text after its semicolon. -/
def fieldAt? (cs : List Char) : Option (Field × List Char) := do
  let (name, cs) ← name? (fun c => c.isLower || c = '_') isNameTail cs
  let cs ← colon? cs
  let (type, cs) ← typeText? cs
  let rest ← after? ';' cs
  some (⟨String.ofList name, FieldType.ofList type⟩, rest)

theorem length_name? {p q : Char → Bool} {cs name rest : List Char}
    (h : name? p q cs = some (name, rest)) : rest.length < cs.length := by
  cases cs with
  | nil => simp [name?] at h
  | cons c cs =>
    simp only [name?] at h
    split at h
    · cases h
      have := length_dropWhile_le (p := q) cs
      simp only [List.length_cons]; omega
    · simp at h

theorem length_closeBracket? {cs type rest : List Char}
    (h : closeBracket? cs = some (type, rest)) : rest.length < cs.length := by
  have hle := length_dropWhile_le (p := (· ≠ ']')) cs
  unfold closeBracket? at h
  split at h
  · rename_i after hdrop
    rw [hdrop] at hle
    split at h
    · simp at h
    · cases h
      simp only [List.length_cons] at hle; omega
  · simp at h

theorem length_typeText? {cs type rest : List Char} (h : typeText? cs = some (type, rest)) :
    rest.length ≤ cs.length := by
  unfold typeText? at h
  split at h
  · obtain ⟨⟨inner, after⟩, hr, heq⟩ := Option.map_eq_some_iff.1 h
    have := length_closeBracket? hr
    cases heq
    simp only [List.length_cons]; omega
  · exact Nat.le_of_lt (length_name? h)

theorem length_after? {c : Char} {cs rest : List Char} (h : after? c cs = some rest) :
    rest.length < cs.length := by
  have hle := length_dropWhile_le (p := (· ≠ c)) cs
  unfold after? at h
  split at h
  · rename_i hdrop
    rw [hdrop] at hle
    cases h
    simp only [List.length_cons] at hle; omega
  · simp at h

theorem length_colon? {cs rest : List Char} (h : colon? cs = some rest) :
    rest.length < cs.length := by
  have hle := length_dropWhile_le (p := isBlank) cs
  unfold colon? skipBlanks at h
  split at h
  · rename_i after hdrop
    have hle' := length_dropWhile_le (p := isBlank) after
    rw [hdrop] at hle
    cases h
    simp only [List.length_cons] at hle; omega
  · simp at h

/-- What follows a field is shorter than what began with it. -/
theorem length_fieldAt? {cs rest : List Char} {f : Field} (h : fieldAt? cs = some (f, rest)) :
    rest.length < cs.length := by
  unfold fieldAt? at h
  obtain ⟨⟨name, cs₁⟩, hname, h⟩ := Option.bind_eq_some_iff.1 h
  obtain ⟨cs₂, hcolon, h⟩ := Option.bind_eq_some_iff.1 h
  obtain ⟨⟨type, cs₃⟩, htype, h⟩ := Option.bind_eq_some_iff.1 h
  obtain ⟨cs₄, hafter, h⟩ := Option.bind_eq_some_iff.1 h
  cases h
  have h₁ := length_name? hname
  have h₂ := length_colon? hcolon
  have h₃ := length_typeText? htype
  have h₄ := length_after? hafter
  omega

/-- The fields in a text, from left to right. Where no field begins one character
is passed over. -/
def fieldsIn (cs : List Char) : List Field :=
  match cs with
  | [] => []
  | c :: rest =>
    match _h : fieldAt? (c :: rest) with
    | some (field, after) => field :: fieldsIn after
    | none => fieldsIn rest
termination_by cs.length
decreasing_by
  · exact length_fieldAt? _h
  · simp

end Bindery.Schema
