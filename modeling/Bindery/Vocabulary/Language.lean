/-!
# Implementation languages

The languages in which the library behind the C interface can be written.
-/

namespace Bindery

/-- A language the implementation is written in. -/
inductive Language where
  | c | cpp | rust | go
deriving DecidableEq, Repr

namespace Language

/-- Every language, in table order. -/
def all : List Language := [c, cpp, rust, go]

/-- The spelling in descriptions. -/
def name : Language → String
  | c => "c" | cpp => "cpp" | rust => "rust" | go => "go"

/-- Further accepted spellings. -/
def aliases : Language → List String
  | go => ["go-like"]
  | _ => []

/-- The extension of source files. -/
def extension : Language → String
  | c => "c" | cpp => "cpp" | rust => "rs" | go => "go"

/-- Whether an implementation skeleton is generated. For C there are build files
and stubs only. -/
def hasSkeleton : Language → Bool
  | c => false
  | _ => true

/-- The language with this spelling, aliases included. -/
def ofName? (s : String) : Option Language :=
  all.find? fun l => l.name == s || l.aliases.contains s

/-- Every accepted spelling, canonical ones first. -/
def spellings : List String := all.map name ++ all.flatMap aliases

end Language

end Bindery
