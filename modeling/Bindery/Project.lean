import Bindery.Load
import Bindery.Schema.Files
import Bindery.Validate.Basic

/-!
# Projects

A project is a description that was loaded, whose schema files were found and
read, and that passed validation. Schema files are looked for beside the
description and then in one more directory, where the program itself lies.
-/

namespace Bindery

/-- A description with its schema, both found valid. -/
structure Project where
  /-- The path of the description. -/
  source : String
  api : Api
  types : Schema
  /-- Where the schema files were found, in the order of the description. -/
  schemaFiles : List String

/-- Why there is no project. -/
inductive ProjectError where
  | load (error : LoadError)
  | resolve (error : Schema.FilesError)
  | invalid (findings : List Validate.Finding)

/-- The wording. -/
def ProjectError.message : ProjectError → String
  | load error => error.message
  | resolve error => "resolving FlatBuffers schemas: " ++ error.message
  | invalid findings => Validate.reportText findings

/-- The first directory in which schema files are looked for: that of the
description. -/
def schemaDir (source : String) : String :=
  match Path.parent? source with
  | some "" | none => "."
  | some dir => dir

/-- All directories in which schema files are looked for. -/
def searchDirs (source programDir : String) : List String :=
  Text.distinct [schemaDir source, programDir]

/-- Checks that a description has no findings. -/
def checkValid (api : Api) (types : Schema) : Except ProjectError Unit :=
  match api.validate (some types) with
  | [] => .ok ()
  | findings => .error (.invalid findings)

/-- What may replace the choices of a description. -/
structure Overrides where
  language : Option Language := none
  targets : List Target := []
deriving DecidableEq, Repr

/-- Loads a description, changes what is overridden, reads the schemas and
validates. -/
def Project.load (fs : FileSystem) (programDir source : String) (changes : Overrides) :
    Except ProjectError Project := do
  let api ← (Api.ofFile fs source).mapError .load
  let api := api.override changes.language changes.targets
  let dirs := searchDirs source programDir
  let schemaFiles ← (api.schemas.mapM (Schema.findFile fs dirs)).mapError .resolve
  let types ← (Schema.ofFiles fs dirs api.schemas).mapError .resolve
  checkValid api types
  return { source, api, types, schemaFiles }

end Bindery
