import Bindery.Vocabulary.Language

/-!
# Starting a project

A new project is a description with one handle and one constructor, and a schema with
one error enumeration.
-/

namespace Bindery.Starter

/-- The names that a new project may have: a letter in lower case, then letters in
lower case, digits and underscores. -/
def isApiName (name : String) : Bool :=
  match name.toList with
  | [] => false
  | c :: cs => c.isLower && cs.all fun d => d.isLower || d.isDigit || d = '_'

/-- The schema. -/
def schema : String :=
  "namespace Common;\n\nenum ErrorCode : int32 \x7b\n    Ok = 0,\n    InvalidArgument = 1,\n"
    ++ "    OutOfMemory = 2,\n    NotFound = 3,\n    InternalError = 4\n\x7d\n"

/-- The description. -/
def description (name : String) (language : Language) : String :=
  "api:\n  name: " ++ name ++ "\n  version: 0.1.0\n  description: \"TODO: describe your API\"\n"
    ++ "  impl_lang: " ++ language.name ++ "\n\nflatbuffers:\n  - schemas/types.fbs\n\n"
    ++ "handles:\n  - name: Instance\n    description: \"Main instance handle\"\n\n"
    ++ "interfaces:\n  - name: lifecycle\n    constructors:\n      - name: create_instance\n"
    ++ "        returns:\n          type: handle:Instance\n        error: Common.ErrorCode\n"

end Bindery.Starter
