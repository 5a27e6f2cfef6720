import Bindery.Shape.Basic
import Bindery.Validate.Finding

/-!
# Diagnostics

A diagnostic is a located message for the terminal, with notes and hints below
it, in colour or without.
-/

namespace Bindery

/-- What a diagnostic is about. -/
inductive Diagnostic.Kind where
  | shape | semantic | warning
deriving DecidableEq, Repr

/-- The words in front of the message. -/
def Diagnostic.Kind.label : Diagnostic.Kind → String
  | shape => "schema error"
  | semantic => "validation error"
  | warning => "warning"

/-- A located message. -/
structure Diagnostic where
  kind : Diagnostic.Kind
  message : String
  /-- A pointer or a path inside the description. -/
  path : Option String := none
  notes : List String := []
  hints : List String := []
deriving DecidableEq, Repr

namespace Diagnostic

/-- The diagnostic of a shape violation. Unknown keys come with a hint. -/
def ofShape (pointer message : String) : Diagnostic where
  kind := .shape
  message
  path := some (Shape.displayPointer pointer)
  hints :=
    if Text.startsWith "unknown property" message then
      ["run `xplatter dump_schema` to see every allowed key"]
    else []

/-- The diagnostic of a violation. -/
def ofViolation (v : Shape.Violation) : Diagnostic := ofShape v.pointer v.message

/-- The diagnostic of a finding. -/
def ofFinding (f : Validate.Finding) : Diagnostic where
  kind := .semantic
  message := f.message
  path := some f.path

/-- The sequences that switch the terminal's colours. -/
structure Palette where
  red : String
  yellow : String
  cyan : String
  bold : String
  reset : String

/-- No colours. -/
def plain : Palette := ⟨"", "", "", "", ""⟩

/-- The usual colours. -/
def coloured : Palette := ⟨"\x1b[31m", "\x1b[33m", "\x1b[36m", "\x1b[1m", "\x1b[0m"⟩

/-- The text of a diagnostic. -/
def render (d : Diagnostic) (file : String) (colour : Bool) : String :=
  let p := if colour then coloured else plain
  let accent := if d.kind = .warning then p.yellow else p.red
  let place := match d.path with
    | some path => file ++ " @ " ++ path
    | none => file
  let remark (label text : String) := "  " ++ p.cyan ++ "=" ++ p.reset ++ " " ++ label ++ ": " ++ text ++ "\n"
  p.bold ++ accent ++ d.kind.label ++ p.reset ++ p.bold ++ ": " ++ d.message ++ p.reset ++ "\n"
    ++ "  " ++ p.cyan ++ "-->" ++ p.reset ++ " " ++ place ++ "\n"
    ++ String.join (d.notes.map (remark "note"))
    ++ String.join (d.hints.map (remark "hint"))

end Diagnostic

end Bindery
