import Bindery.Shape.Basic

/-!
# The shape of a description

Which keys a description has and how its names and types are written. The
patterns are the ones that the published schema document shows.
-/

namespace Bindery.Shape

open Pattern

/-! ### Patterns -/

/-- Lower-case letters. -/
def lowerRange : Char × Char := ('a', 'z')

/-- Upper-case letters. -/
def upperRange : Char × Char := ('A', 'Z')

/-- Digits. -/
def digitRange : Char × Char := ('0', '9')

/-- A letter in lower case, then letters in lower case, digits and underscores. -/
def snakePattern : Pattern :=
  seq (oneOf [lowerRange]) (many (oneOf [lowerRange, digitRange, ('_', '_')]))

/-- A letter in upper case, then letters and digits. -/
def pascalPattern : Pattern :=
  seq (oneOf [upperRange]) (many (oneOf [lowerRange, upperRange, digitRange]))

/-- Pascal-case names between dots. -/
def qualifiedPattern : Pattern :=
  seq pascalPattern (many (seq (char '.') pascalPattern))

/-- At least one digit. -/
def digitsPattern : Pattern := atLeastOne (oneOf [digitRange])

/-- Three numbers between dots. -/
def versionPattern : Pattern :=
  seq digitsPattern (seq (char '.') (seq digitsPattern (seq (char '.') digitsPattern)))

/-- The numeric scalars. -/
def numericNames : List String :=
  ["int8", "int16", "int32", "int64", "uint8", "uint16", "uint32", "uint64", "float32", "float64"]

/-- A type that can be returned. -/
def returnPattern : Pattern :=
  choice (numericNames.map literal
    ++ [literal "bool", seq (literal "handle:") pascalPattern, qualifiedPattern])

/-- A type that a parameter can have. -/
def parameterPattern : Pattern :=
  choice (numericNames.map literal
    ++ [literal "bool", literal "string",
      seq (literal "buffer<") (seq (choice (numericNames.map literal)) (literal ">")),
      seq (literal "handle:") pascalPattern, qualifiedPattern])

/-- A text that ends in `.fbs`. -/
def schemaFilePattern : Pattern := seq (many anyChar) (literal ".fbs")

/-! ### Shapes -/

/-- Any text. -/
def anyText : Shape := .text none

/-- A text that matches a pattern. -/
def matching (display : String) (p : Pattern) : Shape := .text (some ⟨display, p⟩)

/-- A name in snake case. -/
def snakeName : Shape := matching "^[a-z][a-z0-9_]*$" snakePattern

/-- A list without further conditions. -/
def listOf (item : Shape) : Shape := .list item false false

/-- What a description says about itself. -/
def metadata : Shape :=
  .object
    [ ("name", snakeName),
      ("version", matching "^[0-9]+\\.[0-9]+\\.[0-9]+$" versionPattern),
      ("description", anyText),
      ("impl_lang", .word ["cpp", "rust", "go", "go-like", "c"]),
      ("targets", .list (.word ["android", "ios", "web", "windows", "macos", "linux"]) true true) ]
    ["name", "version", "impl_lang"]

/-- A handle. -/
def handle : Shape :=
  .object
    [ ("name", matching "^[A-Z][a-zA-Z0-9]*$" pascalPattern),
      ("description", anyText) ]
    ["name"]

/-- A parameter. -/
def parameter : Shape :=
  .object
    [ ("name", snakeName),
      ("type", matching
        ("^(int8|int16|int32|int64|uint8|uint16|uint32|uint64|float32|float64|bool|string"
          ++ "|buffer<(int8|int16|int32|int64|uint8|uint16|uint32|uint64|float32|float64)>"
          ++ "|handle:[A-Z][a-zA-Z0-9]*|[A-Z][a-zA-Z0-9]*(\\.[A-Z][a-zA-Z0-9]*)*)$")
        parameterPattern),
      ("transfer", .word ["value", "ref", "ref_mut"]),
      ("description", anyText) ]
    ["name", "type"]

/-- A result. -/
def returns : Shape :=
  .object
    [ ("type", matching
        ("^(int8|int16|int32|int64|uint8|uint16|uint32|uint64|float32|float64|bool"
          ++ "|handle:[A-Z][a-zA-Z0-9]*|[A-Z][a-zA-Z0-9]*(\\.[A-Z][a-zA-Z0-9]*)*)$")
        returnPattern),
      ("description", anyText) ]
    ["type"]

/-- A constructor or method. -/
def method : Shape :=
  .object
    [ ("name", snakeName),
      ("description", anyText),
      ("parameters", listOf parameter),
      ("returns", returns),
      ("error", matching "^[A-Z][a-zA-Z0-9]*(\\.[A-Z][a-zA-Z0-9]*)*$" qualifiedPattern) ]
    ["name"]

/-- An interface. -/
def interface : Shape :=
  .object
    [ ("name", snakeName),
      ("description", anyText),
      ("constructors", listOf method),
      ("methods", listOf method) ]
    ["name"]

/-- A whole description. -/
def description : Shape :=
  .object
    [ ("api", metadata),
      ("flatbuffers", .list (matching "\\.fbs$" schemaFilePattern) true false),
      ("handles", listOf handle),
      ("interfaces", .list interface true false) ]
    ["api", "flatbuffers", "interfaces"]

end Bindery.Shape
