import Bindery.Json.Printer
import Bindery.Shape.Pattern

/-!
# Shapes of documents

A `Shape` says which document trees are well formed: a text that matches a
pattern, one of several words, a list of a shape, or an object with certain keys.
`Shape.check` finds the first violation.

An object's keys are looked at in key order, each with its value, before the keys
that must be there; the form of a value is looked at last. A list's items come
before its length. So the violation that is reported is the innermost one.
-/

namespace Bindery

/-- A pattern and the text that stands for it in messages. -/
structure TextPattern where
  display : String
  pattern : Pattern
deriving DecidableEq, Repr

/-- Whether a text matches. -/
def TextPattern.accepts (p : TextPattern) (s : String) : Bool := p.pattern.matchesList s.toList

/-- A shape of document trees. -/
inductive Shape where
  /-- Any text, or one that matches a pattern. -/
  | text (pattern : Option TextPattern)
  /-- One of several words. -/
  | word (words : List String)
  /-- A list. -/
  | list (item : Shape) (nonempty distinct : Bool)
  /-- An object with no other keys than these, some of which must be there. -/
  | object (properties : List (String × Shape)) (required : List String)

namespace Shape

/-- What is wrong with a value. -/
inductive Reason where
  | unknownProperty (key : String)
  | missingProperty (key : String)
  /-- The value is not of the named JSON type. -/
  | wrongType (value : Json) (type : String)
  | noMatch (value : Json) (pattern : String)
  | notAWord (value : Json) (words : List String)
  | tooShort (value : Json)
  | repetition (value : Json)

/-- The wording. -/
def Reason.message : Reason → String
  | unknownProperty key => "unknown property '" ++ key ++ "'"
  | missingProperty key => "\"" ++ key ++ "\" is a required property"
  | wrongType value type => value.compact ++ " is not of type \"" ++ type ++ "\""
  | noMatch value pattern => value.compact ++ " does not match \"" ++ pattern ++ "\""
  | notAWord value words =>
    value.compact ++ " is not one of " ++ (Json.arr (words.map Json.str)).compact
  | tooShort value => value.compact ++ " has less than 1 item"
  | repetition value => value.compact ++ " has non-unique elements"

/-- A violation and the keys and indices that lead to it. -/
structure Violation where
  path : List String
  reason : Reason

/-- The violation seen from one step further out. -/
def Violation.below (step : String) (v : Violation) : Violation :=
  { v with path := step :: v.path }

/-- One step of a pointer: tildes and slashes are escaped. -/
def escapeStep (step : String) : String :=
  Text.substitute
    (fun c => if c = '~' then "~0" else if c = '/' then "~1" else c.toString) step

/-- The pointer to the offending value. -/
def Violation.pointer (v : Violation) : String :=
  String.join (v.path.map fun s => "/" ++ escapeStep s)

/-- The wording of the violation. -/
def Violation.message (v : Violation) : String := v.reason.message

/-- A pointer as messages show it: the document itself is a slash. -/
def displayPointer (pointer : String) : String := if pointer = "" then "/" else pointer

/-- Pointer and wording. -/
def Violation.display (v : Violation) : String :=
  displayPointer v.pointer ++ ": " ++ v.message

/-- A violation at the value itself. -/
def here (r : Reason) : Except Violation Unit := .error ⟨[], r⟩

/-- Whether a list of values repeats a text. -/
def repeatsText (items : List Json) : Bool :=
  let texts := items.map Json.compact
  (Text.distinct texts).length ≠ texts.length

/-- The first key that must be there and is not. -/
def checkRequired (entries : List (String × Json)) (required : List String) :
    Except Violation Unit :=
  match required.find? fun k => (lookupEntry k entries).isNone with
  | some k => here (.missingProperty k)
  | none => .ok ()

mutual

/-- The first violation of a shape. -/
def check (shape : Shape) (value : Json) : Except Violation Unit :=
  match shape with
  | text pattern =>
    match value with
    | .str s =>
      match pattern with
      | some p => if p.accepts s then .ok () else here (.noMatch value p.display)
      | none => .ok ()
    | _ => here (.wrongType value "string")
  | word words =>
    match value with
    | .str s => if words.contains s then .ok () else here (.notAWord value words)
    | _ => here (.notAWord value words)
  | list item nonempty distinct =>
    match value with
    | .arr items => do
      checkItems item 0 items
      if nonempty && items.isEmpty then here (.tooShort value)
      else if distinct && repeatsText items then here (.repetition value)
      else .ok ()
    | _ => here (.wrongType value "array")
  | object properties required =>
    match value with
    | .obj entries => do
      checkEntries properties entries
      checkRequired entries required
    | _ => here (.wrongType value "object")
termination_by (sizeOf shape, 1, 0)

/-- The first violation among the items of a list. -/
def checkItems (item : Shape) (index : Nat) (items : List Json) : Except Violation Unit :=
  match items with
  | [] => .ok ()
  | v :: rest => do
    (check item v).mapError (Violation.below (toString index))
    checkItems item (index + 1) rest
termination_by (sizeOf item, 2, items.length)

/-- The first violation among the entries of an object. -/
def checkEntries (properties : List (String × Shape)) (entries : List (String × Json)) :
    Except Violation Unit :=
  match entries with
  | [] => .ok ()
  | (key, v) :: rest => do
    checkProperty properties key v
    checkEntries properties rest
termination_by (sizeOf properties, 2, entries.length)

/-- The first violation of a value under a key. -/
def checkProperty (properties : List (String × Shape)) (key : String) (value : Json) :
    Except Violation Unit :=
  match properties with
  | [] => .error ⟨[key], .unknownProperty key⟩
  | (k, shape) :: rest =>
    if k = key then (check shape value).mapError (Violation.below key)
    else checkProperty rest key value
termination_by (sizeOf properties, 1, 0)

end

end Shape

end Bindery
