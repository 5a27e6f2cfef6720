import Bindery.FileSystem
import Bindery.Schema.Resolve

/-!
# Schema files

A description names its schema files. A relative name is looked for in several
directories, in order; an absolute one is taken as it is. All files together form
one schema.
-/

namespace Bindery.Schema

/-- Why schema files do not form a schema. -/
inductive FilesError where
  /-- No search directory has the file. -/
  | notFound (path : String) (searched : List String)
  | io (path : String) (error : IoError)
  | duplicate (d : Duplicate)
deriving DecidableEq, Repr

/-- The wording. -/
def FilesError.message : FilesError → String
  | notFound path searched =>
    "schema file " ++ path ++ " not found in search directories: [" ++ Text.commaSep searched ++ "]"
  | io path error => "reading schema file " ++ path ++ ": " ++ error.message
  | duplicate d => d.message

/-- Finds a schema file. -/
def findFile (fs : FileSystem) (dirs : List String) (path : String) : Except FilesError String :=
  if Path.isAbsolute path then .ok path
  else match (dirs.map (Path.join · path)).find? fs.isFile with
  | some found => .ok found
  | none => .error (.notFound path dirs)

/-- Adds the definitions of one file. -/
def addFile (fs : FileSystem) (dirs : List String) (types : Schema) (path : String) :
    Except FilesError Schema := do
  let found ← findFile fs dirs path
  let text ← (fs.readText found).mapError (.io found)
  (types.defineAll (definitionsIn text)).mapError .duplicate

/-- The schema of several files. -/
def ofFiles (fs : FileSystem) (dirs paths : List String) : Except FilesError Schema := do
  let types ← paths.foldlM (addFile fs dirs) Keyed.empty
  return qualify types

end Bindery.Schema
