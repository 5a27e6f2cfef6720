import Bindery.CommandLine.Basic
import Bindery.Diagnostic
import Bindery.Emit
import Bindery.Output

/-!
# Generating

Generation first finds out all it is going to write, without touching any file. Only
then does it clean the output directory, write the artifacts and run the schema
compiler. A dry run lists what would be done instead.

* `prepare` is the part that changes nothing;
* `dryRun` and `realRun` are the two ways to go on.
-/

namespace Bindery

/-! ### Failures -/

/-- Why schemas are not compiled. -/
inductive CompilerError where
  /-- The compiler cannot be started. -/
  | start (binary : String) (error : IoError)
  /-- The compiler gave up. -/
  | failed (flag : String) (code : Nat) (printed : String)
deriving DecidableEq, Repr

/-- The wording. -/
def CompilerError.message : CompilerError → String
  | start binary error => "failed to start " ++ binary ++ ": " ++ error.message
  | failed flag code printed =>
    "flatc " ++ flag ++ " failed (exit status: " ++ toString code ++ "):\n" ++ printed

/-- Why a command gives up. -/
inductive Failure where
  | output (error : OutputError)
  | project (error : ProjectError)
  | emit (error : EmitError)
  | compiler (error : CompilerError)
  /-- A project cannot have this name. -/
  | badName (name : String)
  /-- A new project would replace this file. -/
  | wouldOverwrite (path : String)
  | writeSchema (path : String) (error : IoError)

namespace Failure

/-- The line that tells about it. -/
def message : Failure → String
  | output error => error.message
  | project error => "error: " ++ error.message
  | emit error => "error: emitting: " ++ error.message
  | compiler error => "error: " ++ error.message
  | badName name =>
    "API name '" ++ name ++ "' must start with a lowercase letter and contain only lowercase "
      ++ "letters, digits and underscores"
  | wouldOverwrite path => "Refusing to overwrite existing file '" ++ path ++ "'"
  | writeSchema path error => "Error writing schema to '" ++ path ++ "': " ++ error.message

/-- The diagnostics behind it. -/
def diagnostics : Failure → List Diagnostic
  | project (.load (.shape v)) => [.ofViolation v]
  | project (.invalid findings) => findings.map .ofFinding
  | _ => []

end Failure

/-- Something that a dry run finds to be done. -/
inductive Preview where
  /-- The output directory is cleaned. -/
  | clean (dir : String)
  /-- A scaffold that is there already is kept. -/
  | keep (path : String)
  | write (path : String)
  /-- The schema compiler is run. -/
  | compile (command : String)
deriving DecidableEq, Repr

/-- What a command leaves behind. -/
structure Outcome where
  files : FileSystem
  /-- What was printed. -/
  output : String := ""
  /-- The diagnostics that were printed. -/
  diagnostics : String := ""
  failure : Option Failure := none
  /-- What was done to the files, in order. -/
  changes : List Change := []
  /-- What a dry run listed, in order. -/
  previews : List Preview := []

/-- The outcome of a command about a description that gives up before it changes
anything. Diagnostics are printed when it is verbose. -/
def World.refuse (w : World) (v : Verbosity) (file output : String) (f : Failure) : Outcome where
  files := w.files
  output
  diagnostics :=
    if v.verbose then String.join (f.diagnostics.map (·.render file w.colour)) else ""
  failure := some f

/-! ### Before anything is written -/

/-- The input of the emitters. -/
def Project.context (p : Project) (outputDir : String) : Context where
  api := p.api
  types := p.types
  source := some p.source
  generatedDir := generatedDirName outputDir

/-- Loads a project and makes its artifacts. -/
def prepare (w : World) (file : String) (o : GenerateOptions) :
    Except Failure (Project × List Artifact) := do
  let project ← (Project.load w.files w.programDir file o.overrides).mapError .project
  let artifacts ← (emitPlanned (project.context o.output)).mapError .emit
  return (project, artifacts)

/-! ### The schema compiler -/

/-- Where a program may lie: its name in each of the directories. -/
def searchPaths (dirs name : String) : List String := (Text.cut ':' dirs).map (Path.join · name)

/-- The schema compiler: the one that is named, else the one of the environment, else the first one
that the environment finds. -/
def findCompiler (w : World) (o : GenerateOptions) : Option String :=
  o.compiler <|> w.compiler.filter (· ≠ "")
    <|> w.searchPath.bind fun dirs => (searchPaths dirs "flatc").find? w.files.isFile

/-- The runs of the schema compiler. -/
def Project.invocations (p : Project) (outputDir : String) : List Invocation :=
  if p.schemaFiles.isEmpty then []
  else Bindery.invocations p.api.effectiveTargets p.api.metadata.language p.schemaFiles outputDir

/-- Runs the schema compiler once. -/
def Invocation.run (i : Invocation) (w : World) (binary : String) : Except CompilerError Unit :=
  match w.launch binary i.args with
  | .error e => .error (.start binary e)
  | .ok (0, _) => .ok ()
  | .ok (code, printed) => .error (.failed i.language.flag code printed)

/-- Compiles the schemas and says how often the compiler ran; nothing is said when there
is no compiler. -/
def compileSchemas (w : World) (v : Verbosity) (o : GenerateOptions) (p : Project) :
    Except CompilerError String :=
  match findCompiler w o with
  | none => .ok ""
  | some binary => do
    let runs := p.invocations o.output
    runs.forM (·.run w binary)
    return if p.schemaFiles.isEmpty then ""
      else v.detail ("flatc ran " ++ toString runs.length ++ " invocation(s)")

/-! ### Dry runs -/

/-- The line about a scaffold that is kept. -/
def keptLine (v : Verbosity) (path : String) : String :=
  v.detail ("Scaffold exists, skipped: " ++ path)

/-- The line about something to be done. Files and runs of the compiler are always
listed. -/
def Preview.line (v : Verbosity) : Preview → String
  | clean dir => v.say ("Would clean " ++ dir)
  | keep path => keptLine v path
  | write path => listed ("Would write: " ++ path)
  | compile command => listed ("Would run: " ++ command)

/-- What is to be done about an artifact. -/
def Artifact.preview (a : Artifact) (outputDir : String) (fs : FileSystem) : Preview :=
  let dest := a.destination outputDir
  if a.isKept outputDir fs then .keep dest else .write dest

/-- What would be done. -/
def dryRun (w : World) (o : GenerateOptions) (p : Project) (artifacts : List Artifact) :
    List Preview :=
  let binary := (findCompiler w o).getD "flatc"
  let runs := if o.skipCompiler then [] else p.invocations o.output
  (if o.clean then [.clean o.output] else [])
    ++ artifacts.map (·.preview o.output w.files)
    ++ runs.map fun i => .compile (i.display binary)

/-! ### Real runs -/

/-- The line about an artifact that was dealt with. -/
def fateLine (v : Verbosity) (outputDir : String) : Artifact × Artifact.Fate → String
  | (a, .preserved) => keptLine v (a.destination outputDir)
  | (a, .written) => v.detail ("Wrote: " ++ a.destination outputDir)

/-- The change behind the fate of an artifact. -/
def fateChange? (outputDir : String) : Artifact × Artifact.Fate → Option Change
  | (_, .preserved) => none
  | (a, .written) => some (.written (a.destination outputDir) a.content)

/-- The change that an error in writing leaves behind. -/
def OutputError.change? : OutputError → Option Change
  | makeDirectory dir _ => some (.made dir)
  | write path _ => (parentDir? path).map .made
  | traversal _ | remove _ _ => none

/-- Writes the artifacts and compiles the schemas. -/
def writeRun (w : World) (v : Verbosity) (o : GenerateOptions) (p : Project)
    (artifacts : List Artifact) (fs : FileSystem) : Outcome :=
  let stored := storeAll o.output artifacts fs
  let written := String.join (stored.fates.map (fateLine v o.output))
  let changes := stored.fates.filterMap (fateChange? o.output)
  match stored.error with
  | some e =>
    { files := stored.files, output := written, failure := some (.output e)
      changes := changes ++ e.change?.toList }
  | none =>
    let w := { w with files := stored.files }
    match if o.skipCompiler then .ok "" else compileSchemas w v o p with
    | .error e => { files := stored.files, output := written, failure := some (.compiler e), changes }
    | .ok compiled =>
      { files := stored.files
        output := written ++ compiled ++ v.say (stored.summary.line o.output)
        changes }

/-- Cleans the output directory if that is asked for, then writes. -/
def realRun (w : World) (v : Verbosity) (o : GenerateOptions) (p : Project)
    (artifacts : List Artifact) : Outcome :=
  if o.clean then
    let said := v.say ("Cleaning " ++ o.output)
    match cleanOutput o.output w.files with
    | (fs, some e) =>
      { files := fs, output := said, failure := some (.output e), changes := [.removed o.output] }
    | (fs, none) =>
      let r := writeRun w v o p artifacts fs
      { r with output := said ++ r.output, changes := .removed o.output :: r.changes }
  else writeRun w v o p artifacts w.files

/-- Carries generation out. -/
def generate (w : World) (v : Verbosity) (file : String) (o : GenerateOptions) : Outcome :=
  match checkOutputDir o.output with
  | .error e => { files := w.files, failure := some (.output e) }
  | .ok () =>
    let said := v.say ("Generating from " ++ file)
    match prepare w file o with
    | .error f => w.refuse v file said f
    | .ok (project, artifacts) =>
      if o.dryRun then
        let previews := dryRun w o project artifacts
        { files := w.files
          output := said ++ String.join (previews.map (·.line v))
          previews }
      else
        let r := realRun w v o project artifacts
        { r with output := said ++ r.output }

end Bindery
