import Bindery.Naming

/-!
# Platform services

Six functions that the platform provides to the library: a sink for log lines and
read access to bundled resources.
-/

namespace Bindery.Abi

/-- A function that the platform provides. -/
structure Service where
  name : String
  answer : String
  /-- Types and names. -/
  params : List (String × String)
deriving DecidableEq, Repr

namespace Service

/-- The symbol of the service. -/
def symbol (s : Service) (api : String) : String := Naming.serviceSymbol api s.name

/-- The parameters between the parentheses. -/
def paramList (s : Service) : String :=
  if s.params.isEmpty then "void"
  else Text.commaSep (s.params.map fun p => p.1 ++ " " ++ p.2)

/-- The prototype. Return types other than `void` are padded so that the names of
those services line up. -/
def prototype (s : Service) (api : String) : String :=
  let answer := if s.answer = "void" then "void" else Text.padRight 8 s.answer
  answer ++ " " ++ s.symbol api ++ "(" ++ s.paramList ++ ");"

end Service

/-- The six services. -/
def services : List Service :=
  [ ⟨"log_sink", "void", [("int32_t", "level"), ("const char*", "tag"), ("const char*", "message")]⟩,
    ⟨"resource_count", "uint32_t", []⟩,
    ⟨"resource_name", "int32_t",
      [("uint32_t", "index"), ("char*", "buffer"), ("uint32_t", "buffer_size")]⟩,
    ⟨"resource_exists", "int32_t", [("const char*", "name")]⟩,
    ⟨"resource_size", "uint32_t", [("const char*", "name")]⟩,
    ⟨"resource_read", "int32_t",
      [("const char*", "name"), ("uint8_t*", "buffer"), ("uint32_t", "buffer_size")]⟩ ]

end Bindery.Abi
