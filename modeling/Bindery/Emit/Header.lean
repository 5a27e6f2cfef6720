import Bindery.Abi.Service
import Bindery.Abi.Typedef
import Bindery.Emit.Context

/-!
# The C header

The header declares the whole C interface: the types, the platform services that
the library expects, and one prototype for each operation. Every binding calls
these prototypes.
-/

namespace Bindery.Header

/-- The macro that makes a symbol visible, for each family of compilers. -/
def exportMacroLines (api : String) : List Line :=
  let macroName := Naming.exportMacro api
  let buildName := Naming.buildMacro api
  Code.lines [
    "/* Symbol visibility */",
    "#if defined(_WIN32) || defined(_WIN64)",
    "  #ifdef " ++ buildName,
    "    #define " ++ macroName ++ " __declspec(dllexport)",
    "  #else",
    "    #define " ++ macroName ++ " __declspec(dllimport)",
    "  #endif",
    "#elif defined(__GNUC__) || defined(__clang__)",
    "  #define " ++ macroName ++ " __attribute__((visibility(\"default\")))",
    "#else",
    "  #define " ++ macroName,
    "#endif",
    ""]

/-- The signatures of an interface, operation by operation. -/
def signatures (api : String) (i : Interface) : Except Fault (List Abi.Signature) :=
  i.operations.mapM (Abi.Signature.ofOperation api)

/-- The prototypes of an interface under its name. -/
def interfaceLines (api : String) (i : Interface) : Except Fault (List Line) := do
  let prototypes := (← signatures api i).flatMap fun s =>
    s.lines (some (Naming.exportMacro api)) ";"
  return Code.lines ["/* " ++ i.name ++ " */"] ++ prototypes ++ [Line.blank]

/-- The whole header. -/
def header (ctx : Context) : Except Fault (List Line) := do
  let api := ctx.apiName
  let guardName := Naming.includeGuard api
  let interfaces := (← ctx.api.interfaces.mapM (interfaceLines api)).flatten
  return Code.lines [
      "#ifndef " ++ guardName,
      "#define " ++ guardName,
      "",
      "#include <stdint.h>",
      "#include <stdbool.h>",
      ""]
    ++ exportMacroLines api
    ++ Code.lines ["#ifdef __cplusplus", "extern \"C\" \x7b", "#endif", ""]
    ++ Abi.handleTypedefs ctx.api.handles
    ++ Abi.schemaTypedefs ctx.types
    ++ Code.lines (["/* Platform services: implement these per platform */"]
      ++ Abi.services.map (·.prototype api) ++ [""])
    ++ interfaces
    ++ Code.lines ["#ifdef __cplusplus", "\x7d", "#endif", "", "#endif /* " ++ guardName ++ " */"]

/-- The header as a file. -/
def emit (ctx : Context) : Except Fault (List Artifact) := do
  return [ctx.generatedFile (ctx.apiName ++ ".h") Code.fourBlanks (← header ctx)]

end Bindery.Header
