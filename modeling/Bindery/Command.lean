import Bindery.Generate
import Bindery.Shape.Document
import Bindery.Starter

/-!
# Carrying out commands

Every command is a function from the world to an outcome; `Command.run` joins them.
Which files such a function looks at depends on what it finds in the first of them, so
`Command.consulted` names the paths to look at next, given the files known so far.
-/

namespace Bindery

/-- Checks a description with its schemas. -/
def validate (w : World) (v : Verbosity) (file : String) : Outcome :=
  let said := v.say ("Validating " ++ file)
  match Project.load w.files w.programDir file {} with
  | .error e => w.refuse v file said (.project e)
  | .ok p =>
    let about := p.api.metadata
    { files := w.files
      output := said
        ++ v.detail ("API: " ++ about.name ++ " v" ++ about.version ++ " (" ++ about.language.name ++ ")")
        ++ v.detail ("FlatBuffers schemas: " ++ toString p.api.schemas.length)
        ++ v.detail ("Handles: " ++ toString p.api.handles.length)
        ++ v.detail ("Interfaces: " ++ toString p.api.interfaces.length)
        ++ v.detail ("Resolved types: " ++ toString p.types.size)
        ++ v.say "Validation passed." }

namespace Starter

/-- The files of a new project: paths and contents, the description first. -/
def files (name : String) (language : Language) (dir : String) : List (String × String) :=
  [(Path.join dir (name ++ ".yaml"), description name language),
    (Path.join (Path.join dir "schemas") "types.fbs", schema)]

/-- Writes files in order, up to the first that cannot be written: the files after
that, what was written, and the failure. -/
def writeFiles : List (String × String) → FileSystem →
    FileSystem × List Change × Option Failure
  | [], fs => (fs, [], none)
  | (path, text) :: rest, fs =>
    match fs.write path text.toUTF8 with
    | .error e => (fs, [], some (.output (.write path e)))
    | .ok fs =>
      let (fs, changes, failure) := writeFiles rest fs
      (fs, .written path text :: changes, failure)

end Starter

/-- Starts a project. Nothing is written when one of its files is there already. -/
def start (w : World) (v : Verbosity) (name : String) (language : Language) (dir : String) :
    Outcome :=
  if !Starter.isApiName name then { files := w.files, failure := some (.badName name) }
  else
    let said := v.say ("Initializing project " ++ name ++ " in " ++ dir)
    let files := Starter.files name language dir
    match (files.map Prod.fst).find? w.files.pathExists with
    | some path => { files := w.files, output := said, failure := some (.wouldOverwrite path) }
    | none =>
      let schemaDir := Path.join dir "schemas"
      match w.files.makeDirectories schemaDir with
      | (fs, some e) =>
        { files := fs, output := said, failure := some (.output (.makeDirectory schemaDir e))
          changes := [.made schemaDir] }
      | (fs, none) =>
        let (fs, changes, failure) := Starter.writeFiles files fs
        let created := v.say "Created:"
          ++ String.join (files.map fun f => v.say ("  " ++ f.1))
          ++ v.say ("\nNext: xplatter validate " ++ Path.join dir (name ++ ".yaml"))
        { files := fs, output := if failure.isSome then said else said ++ created, failure
          changes := .made schemaDir :: changes }

/-- Shows the schema document, or writes it to a file. -/
def dumpSchema (w : World) (v : Verbosity) (output : Option String) : Outcome :=
  let text := Shape.document ++ "\n"
  match output with
  | none => { files := w.files, output := text }
  | some path =>
    match w.files.write path text.toUTF8 with
    | .error e => { files := w.files, failure := some (.writeSchema path e) }
    | .ok fs =>
      { files := fs
        output := v.say ("Schema written to " ++ path)
        changes := [.written path text] }

/-- The line that tells the version. -/
def versionLine : String := "xplatter " ++ Banner.version ++ "\n"

/-- Carries a command out. -/
def Command.run (w : World) (v : Verbosity) : Command → Outcome
  | validate file => Bindery.validate w v file
  | generate file options => Bindery.generate w v file options
  | init name language dir => start w v name language dir
  | dumpSchema output => Bindery.dumpSchema w v output
  | version => { files := w.files, output := versionLine }

/-- Carries a request out. -/
def Request.run (w : World) (r : Request) : Outcome := r.command.run w r.verbosity

/-- The exit code. -/
def Outcome.exitCode (o : Outcome) : Nat := if o.failure.isSome then 1 else 0

/-! ### What a command looks at -/

/-- A path and the directory above it. -/
def withParent (path : String) : List String := (parentDir? path).toList ++ [path]

/-- The paths that loading a project looks at. -/
def projectPaths (w : World) (file : String) : List String :=
  withParent file ++
    match Api.ofFile w.files file with
    | .ok api => (searchDirs file w.programDir).flatMap fun dir => api.schemas.map (Path.join dir)
    | .error _ => []

/-- The paths that decide what a command does, as far as the known files tell. -/
def Command.consulted (w : World) : Command → List String
  | validate file => projectPaths w file
  | generate file o =>
    projectPaths w file ++ (findCompiler w o).toList
      ++ (w.searchPath.toList.flatMap fun dirs => searchPaths dirs "flatc") ++
      match prepare w file o with
      | .ok (_, artifacts) =>
        o.output :: artifacts.flatMap fun a => withParent (a.destination o.output)
      | .error _ => []
  | init name language dir =>
    dir :: (Starter.files name language dir).flatMap fun f => withParent f.1
  | dumpSchema output => output.toList.flatMap withParent
  | version => []

end Bindery
