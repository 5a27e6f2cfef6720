import Bindery.FileSystem

/-!
# What commands see and leave behind

A command is a function from a `World` to an outcome. The world holds the files and
everything else that a command asks its surroundings for, other programs included.
How much a command says depends on its verbosity: progress is silenced when it is
quiet, details are given only when it is verbose, and listings are always printed.
-/

namespace Bindery

/-- How much is said. -/
structure Verbosity where
  quiet : Bool := false
  verbose : Bool := false
deriving DecidableEq, Repr

namespace Verbosity

/-- A line of progress. -/
def say (v : Verbosity) (line : String) : String :=
  if v.quiet then "" else line ++ "\n"

/-- A line of detail. -/
def detail (v : Verbosity) (line : String) : String :=
  if v.verbose && !v.quiet then "  " ++ line ++ "\n" else ""

end Verbosity

/-- A line of a listing. -/
def listed (line : String) : String := "  " ++ line ++ "\n"

/-- The surroundings of a command. -/
structure World where
  files : FileSystem
  /-- Where the program itself lies. -/
  programDir : String
  /-- Whether diagnostics are coloured. -/
  colour : Bool := true
  /-- The schema compiler that the environment names. -/
  compiler : Option String := none
  /-- The directories in which the environment searches for programs, with colons between them. -/
  searchPath : Option String := none
  /-- Runs another program with arguments: its exit code and what it printed. That is all that is
  known of the run: by this type, another program leaves the files alone. Whatever is said about the
  files after a command assumes it. -/
  start : String → List String → Except IoError (Nat × String) := fun _ _ => .error .notFound

/-- Runs another program. One that is named by a path must lie there, and the name of
one that is searched for is that of a file. -/
def World.launch (w : World) (program : String) (args : List String) :
    Except IoError (Nat × String) := do
  if program.toList.contains '\x00' then throw .zeroInArgument
  if program.toList.contains '/' then discard (w.files.find program)
  else if FileSystem.maxName < program.utf8ByteSize then throw .nameTooLong
  w.start program args

/-- A change that a command made to the files. -/
inductive Change where
  /-- A directory was removed, or as much of it as could be. -/
  | removed (dir : String)
  /-- A directory was made, or as many of those above it as could be. -/
  | made (dir : String)
  /-- A file was written, and the directories above it that were missing. -/
  | written (path : String) (content : String)
deriving DecidableEq, Repr

end Bindery
