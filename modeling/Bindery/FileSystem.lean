import Bindery.Keyed
import Bindery.Path

/-!
# File systems

A file system is a value: directories and files under their locations, which are
lists of names from the root. Paths are looked up from a working directory. An
operation answers with the file system after it or with the reason why it failed.
Where part of the work may be done by then, it answers with both.

There are no links, neither symbolic nor hard ones: what lies at a location is reached by this
location alone, and writing to it changes nothing at another one. Permissions, and devices that run
full, are left out as well. A path is a text, so names that are no UTF-8 do not occur.
-/

namespace Bindery

/-- Why an operation on files fails. -/
inductive IoError where
  | notFound
  | alreadyExists
  | notADirectory
  | isADirectory
  | invalidArgument
  /-- A name or a whole path that is too long. -/
  | nameTooLong
  /-- A path with a zero in it. -/
  | zeroInPath
  /-- A program or an argument with a zero in it. -/
  | zeroInArgument
  /-- A file that is no text. -/
  | notUtf8
deriving DecidableEq, Repr

/-- The wording. -/
def IoError.message : IoError → String
  | notFound => "No such file or directory (os error 2)"
  | alreadyExists => "File exists (os error 17)"
  | notADirectory => "Not a directory (os error 20)"
  | isADirectory => "Is a directory (os error 21)"
  | invalidArgument => "Invalid argument (os error 22)"
  | nameTooLong => "File name too long (os error 36)"
  | zeroInPath => "file name contained an unexpected NUL byte"
  | zeroInArgument => "nul byte found in provided data"
  | notUtf8 => "stream did not contain valid UTF-8"

/-- Names from the root. -/
abbrev Location := List String

/-- What lies at a location. It is never a link to another one. -/
inductive FileNode where
  | directory
  | file (data : ByteArray)

/-- Directories and files. -/
structure FileSystem where
  /-- In ascending order of locations, so a directory stands right before its
  contents. The root is not listed. -/
  entries : List (Location × FileNode) := []
  /-- The working directory. -/
  home : Location := []

namespace FileSystem

/-- What lies at a location. -/
def node? (fs : FileSystem) (l : Location) : Option FileNode :=
  if l = [] then some .directory else lookupEntry l fs.entries

/-- The file system with something at a location. -/
def put (fs : FileSystem) (l : Location) (n : FileNode) : FileSystem :=
  { fs with entries := insertEntry l n fs.entries }

/-! ### Looking up paths -/

/-- The number of bytes that a name may have. -/
def maxName : Nat := 255

/-- The number of bytes that a path may have. -/
def maxPath : Nat := 4095

/-- Refuses paths that cannot be looked up at all. -/
def checkPath (path : String) : Except IoError Unit :=
  if path.toList.contains '\x00' then .error .zeroInPath
  else if path = "" then .error .notFound
  else if maxPath < path.utf8ByteSize then .error .nameTooLong
  else .ok ()

/-- Goes on from a location by the segments of a path. Every step starts from a
directory. -/
def walk (fs : FileSystem) : Location → List String → Except IoError Location
  | l, [] => .ok l
  | l, s :: rest =>
    match fs.node? l with
    | none => .error .notFound
    | some (.file _) => .error .notADirectory
    | some .directory =>
      if Path.isVoid s then fs.walk l rest
      else if s = ".." then fs.walk l.dropLast rest
      else if maxName < s.utf8ByteSize then .error .nameTooLong
      else fs.walk (l ++ [s]) rest

/-- Where a path begins. -/
def start (fs : FileSystem) (path : String) : Location :=
  if Path.isAbsolute path then [] else fs.home

/-- The location that a path names. Something need not lie there, but the
directories on the way must exist. -/
def locate (fs : FileSystem) (path : String) : Except IoError Location := do
  checkPath path
  fs.walk (fs.start path) (Path.parts path).segments

/-- What lies at a path. -/
def find (fs : FileSystem) (path : String) : Except IoError FileNode := do
  match fs.node? (← fs.locate path) with
  | some n => return n
  | none => throw .notFound

/-- Whether something lies at a path. -/
def pathExists (fs : FileSystem) (path : String) : Bool := (fs.find path).toOption.isSome

/-- Whether a directory lies at a path. -/
def isDirectory (fs : FileSystem) (path : String) : Bool :=
  match fs.find path with
  | .ok .directory => true
  | _ => false

/-- Whether a file lies at a path. -/
def isFile (fs : FileSystem) (path : String) : Bool :=
  match fs.find path with
  | .ok (.file _) => true
  | _ => false

/-! ### Reading -/

/-- The bytes of a file. -/
def readBytes (fs : FileSystem) (path : String) : Except IoError ByteArray := do
  match ← fs.find path with
  | .file data => return data
  | .directory => throw .isADirectory

/-- The text of a file. -/
def readText (fs : FileSystem) (path : String) : Except IoError String := do
  match String.fromUTF8? (← fs.readBytes path) with
  | some s => return s
  | none => throw .notUtf8

/-- The size of a file; directories have none to speak of. -/
def size (fs : FileSystem) (path : String) : Except IoError Nat := do
  match ← fs.find path with
  | .file data => return data.size
  | .directory => return 0

/-! ### Writing -/

/-- The directory that the last thing a path says is looked up in. -/
def locateAbove (fs : FileSystem) (path : String) : Except IoError Location := do
  checkPath path
  let said := ((Path.parts path).segments.reverse.dropWhile (· = "")).reverse
  let l ← fs.walk (fs.start path) said.dropLast
  match fs.node? l with
  | none => throw .notFound
  | some (.file _) => throw .notADirectory
  | some .directory => return l

/-- Writes a file, in place of one that is there. A path that ends in a slash can only
be that of a directory. -/
def write (fs : FileSystem) (path : String) (data : ByteArray) : Except IoError FileSystem := do
  if Path.endsInSlash path then
    discard (fs.locateAbove path)
    throw .isADirectory
  let l ← fs.locate path
  match fs.node? l with
  | some .directory => throw .isADirectory
  | _ => return fs.put l (.file data)

/-- Makes one directory where nothing lies. -/
def makeDirectory (fs : FileSystem) (path : String) : Except IoError FileSystem := do
  checkPath path
  let l ← fs.locate (Path.withoutSlashes path)
  match fs.node? l with
  | some _ => throw .alreadyExists
  | none => return fs.put l .directory

/-- Makes one directory unless it is there. -/
def ensureDirectory (fs : FileSystem) (path : String) : Except IoError FileSystem :=
  match fs.makeDirectory path with
  | .error .alreadyExists => if fs.isDirectory path then .ok fs else .error .alreadyExists
  | r => r

/-- Makes the first of several directories, of which each lies in the next one. Only
when something is missing on the way to it are the others made before. -/
def makeAlong (fs : FileSystem) : List String → FileSystem × Option IoError
  | [] => (fs, none)
  | path :: above =>
    match fs.ensureDirectory path with
    | .ok fs => (fs, none)
    | .error .notFound =>
      match fs.makeAlong above with
      | (fs, some e) => (fs, some e)
      | (fs, none) =>
        match fs.ensureDirectory path with
        | .ok fs => (fs, none)
        | .error e => (fs, some e)
    | .error e => (fs, some e)

/-- Makes a directory and those above it that are missing. Those that were made stay
when another one cannot be. -/
def makeDirectories (fs : FileSystem) (path : String) : FileSystem × Option IoError :=
  fs.makeAlong (Path.ancestors path)

/-- Removes a file. -/
def removeFile (fs : FileSystem) (path : String) : Except IoError FileSystem := do
  let l ← fs.locate path
  match fs.node? l with
  | none => throw .notFound
  | some .directory => throw .isADirectory
  | some (.file _) => return { fs with entries := fs.entries.filter fun e => e.1 ≠ l }

/-- Removes a directory and all it holds. By a path that ends in a dot it can only be
emptied: then the second component tells so. -/
def removeDirectory (fs : FileSystem) (path : String) :
    Except IoError (FileSystem × Option IoError) := do
  let l ← fs.locate path
  match fs.node? l with
  | none => throw .notFound
  | some (.file _) => throw .notADirectory
  | some .directory =>
    let dot := Path.endsInDot path
    let gone (e : Location × FileNode) : Bool := l.isPrefixOf e.1 && !(dot && e.1 = l)
    return ({ fs with entries := fs.entries.filter fun e => !gone e },
      if dot then some .invalidArgument else none)

/-! ### Listing -/

/-- Everything below the working directory: paths, with a slash at the end of
directories, and sizes. -/
def tree (fs : FileSystem) : List (String × Nat) :=
  fs.entries.filterMap fun e =>
    if fs.home.isPrefixOf e.1 && e.1 ≠ fs.home then
      let path := "/".intercalate (e.1.drop fs.home.length)
      match e.2 with
      | .directory => some (path ++ "/", 0)
      | .file data => some (path, data.size)
    else none

end FileSystem

end Bindery
