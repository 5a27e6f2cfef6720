import Bindery.Code.Line

/-!
# Writing step by step

A `Writer` collects text and remembers how deep it stands. It is the stepwise
face of `Code.render`: writing a list of lines at level zero appends exactly what
rendering them gives.
-/

namespace Bindery

/-- Text written so far, and the depth at which the next line goes. -/
structure Writer where
  buffer : String := ""
  level : Nat := 0
  unit : String := Code.fourBlanks
deriving DecidableEq, Repr

namespace Writer

/-- Appends text as it is. -/
def write (w : Writer) (s : String) : Writer := { w with buffer := w.buffer ++ s }

/-- Appends the indentation of the current level. -/
def writeIndent (w : Writer) : Writer := w.write (Text.times w.level w.unit)

/-- Appends a line. A line without text gets no indentation. -/
def line (w : Writer) (s : String) : Writer :=
  if s = "" then w.write "\n" else ((w.writeIndent).write s).write "\n"

/-- Appends several lines. -/
def lines (w : Writer) (ls : List String) : Writer := ls.foldl line w

/-- Appends an empty line. -/
def blankLine (w : Writer) : Writer := w.write "\n"

/-- One level deeper. -/
def indent (w : Writer) : Writer := { w with level := w.level + 1 }

/-- One level up, but never above the top. -/
def dedent (w : Writer) : Writer := { w with level := w.level - 1 }

/-- Appends a comment line. -/
def comment (w : Writer) (s : String) : Writer := w.line ("// " ++ s)

/-- What can be asked of a writer. -/
inductive Step where
  | line (s : String)
  | lines (ls : List String)
  | write (s : String)
  | blankLine
  | writeIndent
  | indent
  | dedent
  | comment (s : String)
  /-- A header that opens a brace, deeper steps, and a closing line. -/
  | blockWith (header close : String) (steps : List Step)
  /-- Steps one level deeper. -/
  | indented (steps : List Step)

mutual

/-- The writer after one step. -/
def step (w : Writer) : Step → Writer
  | .line s => w.line s
  | .lines ls => w.lines ls
  | .write s => w.write s
  | .blankLine => w.blankLine
  | .writeIndent => w.writeIndent
  | .indent => w.indent
  | .dedent => w.dedent
  | .comment s => w.comment s
  | .blockWith header close steps =>
    (((w.line (header ++ " \x7b")).indent.run steps).dedent).line close
  | .indented steps => (w.indent.run steps).dedent

/-- The writer after several steps. -/
def run (w : Writer) : List Step → Writer
  | [] => w
  | s :: rest => (w.step s).run rest

end

/-- Appends lines of code, each at its own depth below the current level. -/
def code (w : Writer) (ls : List Line) : Writer :=
  ls.foldl (fun w l => { (({ w with level := w.level + l.depth }).line l.text) with level := w.level }) w

end Writer

end Bindery
