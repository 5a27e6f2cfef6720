import Bindery.Path

/-!
# Files to be written

An emitter answers with artifacts: files with a path and a content. A scaffold
belongs to the user once it is written and is created only where it is missing. A
project file lies beside the output directory, all others lie below it.
-/

namespace Bindery

/-- A file to be written. -/
structure Artifact where
  path : String
  content : String
  isScaffold : Bool := false
  isProjectFile : Bool := false
deriving DecidableEq, Repr

/-- The name of the output directory unless another is chosen. -/
def defaultOutputName : String := "generated"

namespace Artifact

/-- The artifact beside the output directory. -/
def inProject (a : Artifact) : Artifact := { a with isProjectFile := true }

/-- Where an artifact goes for an output directory. -/
def destination (a : Artifact) (outputDir : String) : String :=
  if a.isProjectFile then Path.join ((Path.parent? outputDir).getD "") a.path
  else Path.join outputDir a.path

end Artifact

/-- The last name of an output directory, by which project files reach generated
ones. A directory is a text here, so a name that is no UTF-8, of which only an approximation could
be printed, does not occur. -/
def generatedDirName (outputDir : String) : String :=
  (Path.fileName? outputDir).getD defaultOutputName

end Bindery
