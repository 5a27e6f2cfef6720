import Bindery.Text.Basic

/-!
# Names in the generated code

One description feeds several languages, each with its own spelling of the same
name. Interfaces, operations and parameters are written in snake case and
handles in Pascal case; this module derives every other spelling from those.

All changes of case are changes of ASCII letters. Every other character is
carried over as it is.
-/

namespace Bindery.Naming

open Bindery

/-- The text with its first character in upper case. -/
def upperFirst (s : String) : String :=
  match s.toList with
  | [] => ""
  | c :: cs => String.ofList (c.toUpper :: cs)

/-- The text with its first character in lower case. -/
def lowerFirst (s : String) : String :=
  match s.toList with
  | [] => ""
  | c :: cs => String.ofList (c.toLower :: cs)

/-- Pascal case: the pieces between underscores, each starting in upper case. -/
def pascalCase (s : String) : String :=
  String.join ((Text.cut '_' s).map upperFirst)

/-- Camel case: Pascal case that starts in lower case. -/
def camelCase (s : String) : String :=
  lowerFirst (pascalCase s)

/-- Snake case of a Pascal-case name: an underscore goes before every upper-case
letter but the first character, so an acronym is split letter by letter. -/
def handleToSnake (name : String) : String :=
  match name.toList with
  | [] => ""
  | c :: cs =>
    String.ofList (c.toLower :: cs.flatMap fun d => if d.isUpper then ['_', d.toLower] else [d])

/-- The name in upper case. -/
def upperSnake (s : String) : String :=
  Text.mapChars Char.toUpper s

/-! ### Symbols of the C interface -/

/-- The exported symbol of an operation. -/
def cSymbol (api interface operation : String) : String :=
  api ++ "_" ++ interface ++ "_" ++ operation

/-- The symbol of a platform service. -/
def serviceSymbol (api service : String) : String :=
  api ++ "_" ++ service

/-- The C type of a handle. -/
def handleTypedef (handle : String) : String :=
  handleToSnake handle ++ "_handle"

/-- The tag of the opaque C structure behind a handle. -/
def handleStructTag (handle : String) : String :=
  handleToSnake handle ++ "_s"

/-- The operation that ends the life of a handle. -/
def destructorName (handle : String) : String :=
  "destroy_" ++ handleToSnake handle

/-- A constructor is called `create`, or `create_` and something more. -/
def isConstructorName (name : String) : Bool :=
  name == "create" ||
    match Text.dropPrefix? "create_" name with
    | some rest => rest != ""
    | none => false

/-- The macro that marks exported functions. -/
def exportMacro (api : String) : String :=
  upperSnake api ++ "_EXPORT"

/-- The macro that is set while the library itself is compiled. -/
def buildMacro (api : String) : String :=
  upperSnake api ++ "_BUILD"

/-- The guard against including the header twice. -/
def includeGuard (api : String) : String :=
  upperSnake api ++ "_H"

/-! ### Schema types -/

/-- The C spelling of a qualified schema type: dots become underscores. -/
def cTypeName (qualified : String) : String :=
  Text.replaceChar '.' "_" qualified

/-- The spelling of a qualified schema type where namespaces are flattened: dots
are dropped. -/
def flatTypeName (qualified : String) : String :=
  Text.replaceChar '.' "" qualified

/-! ### The Java Native Interface -/

/-- The package of an interface: underscores become dots. -/
def kotlinPackage (api : String) : String :=
  Text.replaceChar '_' "." api

/-- The escape of one character in a native symbol. -/
def jniEscapeChar (c : Char) : String :=
  if c = '_' then "_1"
  else if c = ';' then "_2"
  else if c = '[' then "_3"
  else if c.isAlphanum then c.toString
  else "_0" ++ Text.hex 4 c.toNat

/-- One segment of a native symbol, in letters, digits and underscores only. -/
def jniEscape (segment : String) : String :=
  Text.substitute jniEscapeChar segment

/-- The symbol of a native method: package, class and method, each escaped. -/
def jniSymbol (package cls method : String) : String :=
  let segments := (Text.cut '.' package).filter (· != "")
  String.join ("Java" :: (segments ++ [cls, method]).map fun s => "_" ++ jniEscape s)

end Bindery.Naming
