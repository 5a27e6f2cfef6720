import Bindery.Api.Document
import Bindery.FileSystem
import Bindery.Shape.Description
import Bindery.Yaml.Value

/-!
# Loading descriptions

A description is read as YAML, its shape is checked, and then it is taken apart.
The shape is checked on the document tree, so that a violation can be located. A
file is refused for its size before it is read.
-/

namespace Bindery

/-- Why a file or a text is no description. -/
inductive LoadError where
  | io (path : String) (error : IoError)
  | tooLarge (path : String) (size : Nat)
  | yaml (problem : Yaml.Problem)
  | shape (violation : Shape.Violation)
  /-- The tree has the right shape and still does not fit. -/
  | mismatch

/-- Larger descriptions, in bytes, are refused. -/
def maxDescriptionSize : Nat := 8 * 1024 * 1024

/-- The wording. What is wrong with the YAML is not spelled out. -/
def LoadError.message : LoadError → String
  | io path error => "reading API description " ++ path ++ ": " ++ error.message
  | tooLarge path size =>
    "API description " ++ path ++ " is too large (" ++ toString size ++ " bytes, limit "
      ++ toString maxDescriptionSize ++ ")"
  | yaml _ => "parsing YAML"
  | shape v => "schema validation: " ++ v.display
  | mismatch => "building API description"

/-- The description that a document tree writes. -/
def Api.ofDocument (doc : Json) : Except LoadError Api := do
  (Shape.description.check doc).mapError .shape
  match Api.ofJson? doc with
  | some a => return a
  | none => throw .mismatch

/-- The description that a text writes. -/
def Api.ofYaml (text : String) : Except LoadError Api := do
  let doc ← (Yaml.load text).mapError .yaml
  Api.ofDocument doc

/-- The description in a file. -/
def Api.ofFile (fs : FileSystem) (path : String) : Except LoadError Api := do
  let size ← (fs.size path).mapError (.io path)
  if size > maxDescriptionSize then throw (.tooLarge path size)
  let text ← (fs.readText path).mapError (.io path)
  Api.ofYaml text

end Bindery
