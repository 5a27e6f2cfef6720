import Bindery.Command

/-!
# The program

Arguments become a request. The files that the request looks at are read from the
disk, the command is carried out on them, and its changes are written back. No other
program is started, so a schema compiler that is asked for counts as missing, and none is searched
for.
-/

namespace Bindery.Main

/-- How the program is called. -/
def usageText : String :=
  "usage: xplatter [-q | -v] COMMAND\n\n"
    ++ "  validate FILE                 check a description and its schemas\n"
    ++ "  generate FILE [-o DIR] [--impl-lang LANG] [--targets LIST] [--dry-run] [--clean]\n"
    ++ "                [-f FLATC | --skip-flatc]\n"
    ++ "  init [-n NAME] [--impl-lang LANG] [-o DIR]\n"
    ++ "  dump_schema [-o FILE]         print the schema of descriptions\n"
    ++ "  version                       print the version\n"

/-- Explains why arguments are not carried out. -/
def explain (u : CommandLine.Usage) : IO UInt32 := do
  match u with
  | .version => IO.print versionLine
  | .help => IO.print usageText
  | .badValue reason => IO.eprint ("error: " ++ reason ++ "\n\n" ++ usageText)
  | _ => IO.eprint usageText
  return u.exitCode.toUInt32

/-- Reads what lies at a path into the known files. -/
def remember (fs : FileSystem) (path : String) : IO FileSystem := do
  let below (dir : Option String) : FileSystem :=
    match dir with
    | some dir => (fs.makeDirectories dir).1
    | none => fs
  match ← (IO.FS.readBinFile path).toBaseIO with
  | .ok data =>
    let known := below (parentDir? path)
    return (known.write path data).toOption.getD known
  | .error (.noFileOrDirectory ..) => return fs
  | .error _ => return below (some path)

/-- Reads everything that a command looks at. -/
partial def gather (c : Command) (w : World) (known : List String) : IO World := do
  let wanted := (c.consulted w).filter fun path => !known.contains path
  if wanted.isEmpty then return w
  let files ← wanted.foldlM remember w.files
  gather c { w with files } (known ++ wanted)

/-- Writes a change back. -/
def apply : Change → IO Unit
  | .removed dir => do discard (IO.FS.removeDirAll dir).toBaseIO
  | .made dir => do discard (IO.FS.createDirAll dir).toBaseIO
  | .written path content => do
    if let some dir := parentDir? path then IO.FS.createDirAll dir
    IO.FS.writeFile path content

/-- The world as the program finds it. -/
def surroundings : IO World := do
  let here := toString (← IO.currentDir)
  let root : FileSystem := { home := Path.names here }
  return {
    files := (root.makeDirectories here).1
    programDir := toString (← IO.appDir)
    colour := (← IO.getEnv "NO_COLOR").isNone
    compiler := ← IO.getEnv "XPLATTER_FLATC_PATH" }

/-- Carries a request out on the disk. -/
def perform (r : Request) : IO UInt32 := do
  let w ← gather r.command (← surroundings) []
  let o := r.run w
  IO.print o.output
  IO.eprint o.diagnostics
  o.changes.forM apply
  if let some f := o.failure then IO.eprintln f.message
  return o.exitCode.toUInt32

end Bindery.Main

/-- The entry point. -/
def main (args : List String) : IO UInt32 :=
  match Bindery.Request.ofArgs args with
  | .error u => Bindery.Main.explain u
  | .ok r => Bindery.Main.perform r
