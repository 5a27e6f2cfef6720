import Bindery.Artifact
import Bindery.FileSystem

/-!
# Writing artifacts

Artifacts are written one after the other. A scaffold that is there already is
kept, and the summary counts both kinds.
-/

namespace Bindery

/-! ### The output directory -/

/-- Why an output directory is refused or artifacts are not written. -/
inductive OutputError where
  /-- The output directory goes up somewhere. -/
  | traversal (dir : String)
  | remove (dir : String) (error : IoError)
  | makeDirectory (dir : String) (error : IoError)
  | write (path : String) (error : IoError)
deriving DecidableEq, Repr

/-- The wording. -/
def OutputError.message : OutputError → String
  | traversal dir => "Output directory '" ++ dir ++ "' contains path traversal (..)"
  | remove dir error => "Error removing '" ++ dir ++ "': " ++ error.message
  | makeDirectory dir error => "Error creating directory '" ++ dir ++ "': " ++ error.message
  | write path error => "Error writing '" ++ path ++ "': " ++ error.message

/-- Output directories must not go up. -/
def checkOutputDir (dir : String) : Except OutputError Unit :=
  if Path.hasTraversal dir then .error (.traversal dir) else .ok ()

/-! ### The summary -/

/-- How many files were written and how many scaffolds were kept. -/
structure Summary where
  written : Nat := 0
  preserved : Nat := 0
deriving DecidableEq, Repr

/-- The summary in a sentence. -/
def Summary.line (s : Summary) (outputDir : String) : String :=
  "Generated " ++ toString s.written ++ " files in " ++ outputDir
    ++ if s.preserved = 0 then ""
      else ", " ++ toString s.preserved ++ " scaffold file(s) preserved"

/-! ### Writing -/

/-- What happened to an artifact. -/
inductive Artifact.Fate where
  | preserved
  | written
deriving DecidableEq, Repr

/-- The directory above a path, if the path names one. -/
def parentDir? (path : String) : Option String :=
  (Path.parent? path).filter (· ≠ "")

/-- Whether an artifact is a scaffold that is there already. -/
def Artifact.isKept (a : Artifact) (outputDir : String) (fs : FileSystem) : Bool :=
  a.isScaffold && fs.pathExists (a.destination outputDir)

/-- Makes the directories above a file. -/
def makeRoomFor (path : String) (fs : FileSystem) : FileSystem × Option OutputError :=
  match parentDir? path with
  | some dir =>
    let (fs, error) := fs.makeDirectories dir
    (fs, error.map (.makeDirectory dir))
  | none => (fs, none)

/-- Writes one artifact, or keeps the scaffold that is there. The directories that
were made for it stay when it cannot be written. -/
def Artifact.store (a : Artifact) (outputDir : String) (fs : FileSystem) :
    FileSystem × Except OutputError Artifact.Fate :=
  if a.isKept outputDir fs then (fs, .ok .preserved)
  else
    let dest := a.destination outputDir
    match makeRoomFor dest fs with
    | (fs, some e) => (fs, .error e)
    | (fs, none) =>
      match fs.write dest a.content.toUTF8 with
      | .ok fs => (fs, .ok .written)
      | .error e => (fs, .error (.write dest e))

/-- The summary with one more artifact. -/
def Summary.add (s : Summary) : Artifact.Fate → Summary
  | .preserved => { s with preserved := s.preserved + 1 }
  | .written => { s with written := s.written + 1 }

/-- What became of several artifacts. -/
structure Stored where
  files : FileSystem
  /-- The artifacts that were dealt with and what happened to each. -/
  fates : List (Artifact × Artifact.Fate) := []
  /-- Why the next one could not be written. -/
  error : Option OutputError := none

/-- Writes artifacts in order, up to the first that cannot be written. -/
def storeAll (outputDir : String) : List Artifact → FileSystem → Stored
  | [], fs => { files := fs }
  | a :: rest, fs =>
    match a.store outputDir fs with
    | (fs, .error e) => { files := fs, error := some e }
    | (fs, .ok fate) =>
      let stored := storeAll outputDir rest fs
      { stored with fates := (a, fate) :: stored.fates }

/-- The summary of what happened. -/
def Stored.summary (s : Stored) : Summary := s.fates.foldl (fun sum f => sum.add f.2) {}

/-- Empties the way for new output: removes a directory with all it holds. One that
is not there is no mistake. -/
def cleanOutput (dir : String) (fs : FileSystem) : FileSystem × Option OutputError :=
  match fs.removeDirectory dir with
  | .ok (fs, error) => (fs, error.map (.remove dir))
  | .error .notFound => (fs, none)
  | .error e => (fs, some (.remove dir e))

end Bindery
