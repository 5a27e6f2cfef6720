import Bindery.Emit.Build.Makefile

/-!
# Build files

Every language gets a makefile. C has no skeleton of its own, so its build files
come with stubs of all operations and a second build file for the web.
-/

namespace Bindery.Build

/-! ### Stubs in C -/

/-- What a stub returns: the failure without a better name, or a zero. -/
def stubReturn (ctx : Context) (m : Method) (s : Abi.Signature) : Except Fault (Option String) :=
  match m.error, m.returns with
  | some e, _ => (ctx.failureConstant e).map some
  | none, some r => do
    match ← Abi.classify r.type with
    | .handle _ | .string | .buffer _ => return some "NULL"
    | .qualified q =>
      return some (if ctx.isEnum q then "0" else "(" ++ s.answer.c ++ ")\x7b0\x7d")
    | .primitive _ => return some "0"
  | none, none => .ok none

/-- The stub of an operation. -/
def stubLines (ctx : Context) (op : Operation) : Except Fault (List Line) := do
  let s ← Abi.Signature.ofOperation ctx.apiName op
  let answer ← stubReturn ctx op.method s
  return s.lines (some (Naming.exportMacro ctx.apiName)) " \x7b"
    ++ Code.indent (Code.lines (
      ["/* TODO: implement " ++ op.interface.name ++ "." ++ op.method.name ++ " */"]
        ++ s.argNames.map (fun n => "(void)" ++ n ++ ";")
        ++ answer.toList.map fun v => "return " ++ v ++ ";"))
    ++ Code.lines ["\x7d", ""]

/-- The stubs of all operations. -/
def cStubs (ctx : Context) : Except Fault (List Line) := do
  let stubs ← ctx.api.interfaces.mapM fun i => do
    return Code.lines ["/* " ++ i.name ++ " */", ""]
      ++ (← i.operations.mapM (stubLines ctx)).flatten
  return Code.lines ["#include \"" ++ ctx.apiName ++ ".h\"", "#include <stdlib.h>",
    "#include <string.h>", ""] ++ stubs.flatten

/-! ### The second build file of C -/

/-- A command with one argument a line. -/
def command (head : String) (args : List String) : List Line :=
  Code.enclosed head ")" (Code.lines args)

/-- The build file of the C library, for the web and for all else. -/
def cCmake (ctx : Context) : List Line :=
  let api := ctx.apiName
  let project := Text.replaceChar '_' "-" api
  let directories := "target_include_directories(" ++ project
    ++ " PRIVATE $\x7bCMAKE_CURRENT_SOURCE_DIR\x7d/" ++ ctx.generatedDir ++ ")"
  let definitions := "target_compile_definitions(" ++ project ++ " PRIVATE "
    ++ Naming.buildMacro api ++ ")"
  Code.lines ["cmake_minimum_required(VERSION 3.15)",
      "project(" ++ project ++ " VERSION " ++ ctx.api.metadata.version ++ " LANGUAGES C)", "",
      "set(CMAKE_C_STANDARD 17)", "set(CMAKE_C_STANDARD_REQUIRED ON)", "", "if(EMSCRIPTEN)"]
    ++ Code.indent (
      command ("add_executable(" ++ project) [api ++ "_impl.c", Platform.web.servicesFile]
        ++ Code.lines ["set_target_properties(" ++ project ++ " PROPERTIES SUFFIX \".wasm\")",
          directories, definitions]
        ++ command ("target_link_options(" ++ project ++ " PRIVATE") [
          "--no-entry",
          "\"SHELL:-s EXPORTED_FUNCTIONS=" ++ Text.replaceChar '"' "'" (wasmExportList ctx) ++ "\"",
          "\"SHELL:-s STANDALONE_WASM\"",
          "-O2"])
    ++ Code.lines ["else()"]
    ++ Code.indent (
      command ("add_library(" ++ project ++ " SHARED") [api ++ "_impl.c",
          Platform.desktop.servicesFile]
        ++ Code.lines [directories, definitions])
    ++ Code.lines ["endif()"]

/-! ### Files -/

/-- The makefile of a language. -/
def emit (language : Language) (ctx : Context) : Except Fault (List Artifact) :=
  .ok [(Makefile.mk ctx language).artifact]

/-- The build files of C. -/
def emitC (ctx : Context) : Except Fault (List Artifact) := do
  let stubs ← cStubs ctx
  return [
    (Makefile.mk ctx .c).artifact,
    (ctx.scaffoldFile .slash (ctx.apiName ++ "_impl.c") Code.fourBlanks stubs).inProject,
    (ctx.scaffoldFile .hash "CMakeLists.txt" Code.fourBlanks (cCmake ctx)).inProject]

end Bindery.Build
