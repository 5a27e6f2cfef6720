import Bindery.Text.Basic

/-!
# Lines of generated code

Generated code is a list of lines, each at a depth. The unit of indentation is
chosen only when the lines are written out, so the same lines can be shifted,
counted and compared as they are. A line without text is written without
indentation.
-/

namespace Bindery

/-- A line of code at a depth. -/
structure Line where
  depth : Nat := 0
  text : String
deriving DecidableEq, Repr

instance : Coe String Line := ⟨fun text => { text }⟩

namespace Line

/-- A line without text. -/
def blank : Line := { text := "" }

/-- The line as it is written, with its line feed. -/
def render (unit : String) (l : Line) : String :=
  if l.text = "" then "\n" else Text.times l.depth unit ++ l.text ++ "\n"

end Line

namespace Code

/-- Lines at the outermost level. -/
def lines (texts : List String) : List Line := texts.map fun text => { text }

/-- The lines one level deeper. -/
def indent (lines : List Line) : List Line :=
  lines.map fun l => { l with depth := l.depth + 1 }

/-- A header, the body one level deeper, and a closing line. -/
def enclosed (header close : String) (body : List Line) : List Line :=
  ({ text := header } : Line) :: indent body ++ [({ text := close } : Line)]

/-- A header that opens a brace, the body one level deeper, and a closing line. -/
def blockWith (header close : String) (body : List Line) : List Line :=
  enclosed (header ++ " \x7b") close body

/-- A header that opens a brace, the body one level deeper, and the closing brace. -/
def block (header : String) (body : List Line) : List Line :=
  blockWith header "\x7d" body

/-- The lines with their indentation spelled out, for use inside code that is
indented in another way. -/
def spellOut (unit : String) (ls : List Line) : List Line :=
  ls.map fun l => if l.text = "" then l else { text := Text.times l.depth unit ++ l.text }

/-- A comment line. -/
def comment (text : String) : Line := "// " ++ text

/-- The text of the lines. -/
def render (unit : String) (lines : List Line) : String :=
  String.join (lines.map (Line.render unit))

/-- Indentation of C, C++, Kotlin and Swift. -/
def fourBlanks : String := "    "

/-- Indentation of Go. -/
def tab : String := "\t"

/-- Indentation of JavaScript. -/
def twoBlanks : String := "  "

@[simp] theorem indent_nil : indent [] = [] := rfl

@[simp] theorem indent_append (a b : List Line) : indent (a ++ b) = indent a ++ indent b := by
  simp [indent]

@[simp] theorem length_indent (a : List Line) : (indent a).length = a.length := by
  simp [indent]

end Code

end Bindery
