import Bindery.Emit.Context

/-!
# The C++ skeleton

An abstract class with one virtual function for each method, a shim that forwards
every C symbol to it, and an implementation for the user to fill in. Constructors
and destructors never reach the class: the shim calls a factory and deletes the
instance. A method whose first parameter is no handle goes to a default instance.
-/

namespace Bindery.Cpp

/-! ### Names -/

/-- The abstract class. -/
def interfaceClass (ctx : Context) : String := ctx.pascalApi ++ "Interface"

/-- The class that the user fills in. -/
def implClass (ctx : Context) : String := ctx.pascalApi ++ "Impl"

/-- The function that makes an instance. -/
def factory (ctx : Context) : String := "create_" ++ ctx.apiName ++ "_instance"

/-- The name of the virtual function of a method. The interface stands in front
when an interface of another name has a method of this name. -/
def methodName (ctx : Context) (i : Interface) (m : Method) : String :=
  let others := ctx.api.interfaces.filter (·.name ≠ i.name)
  if others.any fun o => o.methods.any (·.name = m.name) then i.name ++ "_" ++ m.name
  else m.name

/-! ### Virtual functions -/

/-- The span of a buffer's elements. -/
def span (p : Parameter) (element : Primitive) : String :=
  if p.effectiveTransfer.isMut then "std::span<" ++ element.row.c ++ ">"
  else "std::span<const " ++ element.row.c ++ ">"

/-- The type of a parameter of a virtual function. -/
def paramType (ctx : Context) (p : Parameter) : Except Fault String := do
  match ← Abi.classify p.type with
  | .string => return "std::string_view"
  | .buffer element => return span p element
  | .handle h => return Naming.handleTypedef h
  | .primitive q => return q.row.c
  | .qualified q =>
    let c := Naming.cTypeName q
    match p.effectiveTransfer with
    | .value => return if ctx.isEnum q then c else "const " ++ c ++ "&"
    | .ref => return "const " ++ c ++ "*"
    | .refMut => return c ++ "*"

/-- What a C argument is turned into before it is handed on. -/
def argument (p : Parameter) : Except Fault String := do
  match ← Abi.classify p.type with
  | .string => return "std::string_view(" ++ p.name ++ ")"
  | .buffer element => return span p element ++ "(" ++ p.name ++ ", " ++ Abi.lengthName p.name ++ ")"
  | _ => return p.name

/-- A virtual function. -/
structure Virtual where
  answer : String
  name : String
  /-- Types and names. -/
  params : List (String × String)
  shape : CallShape
deriving DecidableEq, Repr

namespace Virtual

/-- The virtual function of a method. -/
def ofMethod (ctx : Context) (i : Interface) (m : Method) : Except Fault Virtual := do
  let answer ← match m.error, m.returns with
    | some _, _ => pure "int32_t"
    | none, some r => (Abi.ValueType.ofText r.type).map (·.c)
    | none, none => pure "void"
  let params ← m.parameters.mapM fun p => do return (← paramType ctx p, p.name)
  let out ← match m.error, m.returns with
    | some _, some r => do
      let v ← Abi.ValueType.ofText r.type
      pure [(v.c ++ "*", Abi.outName)]
    | _, _ => pure []
  return { answer, name := methodName ctx i m, params := params ++ out, shape := m.shape }

/-- The declaration, with the function seen from inside a scope. -/
def declaration (v : Virtual) (scope : String) : String :=
  v.answer ++ " " ++ scope ++ v.name ++ "("
    ++ Text.commaSep (v.params.map fun p => p.1 ++ " " ++ p.2) ++ ")"

/-- What a body that does nothing returns. -/
def placeholder (v : Virtual) : List String :=
  match v.shape with
  | .fallibleVoid | .fallibleValue => ["return 0;"]
  | .infallibleValue => ["return \x7b\x7d;"]
  | .infallibleVoid => []

end Virtual

/-- The virtual functions, interface by interface. -/
def virtuals (ctx : Context) : Except Fault (List (Interface × List Virtual)) :=
  ctx.api.interfaces.mapM fun i => do return (i, ← i.methods.mapM (Virtual.ofMethod ctx i))

/-- The declarations of all virtual functions. -/
def virtualLines (lead tail : String) (vs : List (Interface × List Virtual)) : List Line :=
  vs.flatMap fun (i, ms) =>
    if ms.isEmpty then []
    else Code.lines (["", "/* " ++ i.name ++ " */"]
      ++ ms.map fun v => lead ++ v.declaration "" ++ tail)

/-! ### The interface -/

/-- The header of the abstract class. -/
def interfaceHeader (ctx : Context) (vs : List (Interface × List Virtual)) : List Line :=
  let guardName := Naming.upperSnake ctx.apiName ++ "_INTERFACE_H"
  let cls := interfaceClass ctx
  Code.lines ["#ifndef " ++ guardName, "#define " ++ guardName, "",
      "#include <cstddef>", "#include <cstdint>", "#include <span>", "#include <string_view>",
      "#include \"" ++ ctx.apiName ++ ".h\"", "",
      "class " ++ cls ++ " \x7b", "public:"]
    ++ Code.indent (Code.lines ["virtual ~" ++ cls ++ "() = default;"]
      ++ virtualLines "virtual " " = 0;" vs)
    ++ Code.lines ["\x7d;", "",
      "// Implement this to return your concrete instance.",
      cls ++ "* " ++ factory ctx ++ "();", "",
      "#endif /* " ++ guardName ++ " */"]

/-! ### The shim -/

/-- The value that a constructor returns when there is no instance. -/
def failureText (ctx : Context) (m : Method) : Except Fault String :=
  match m.error with
  | some e => ctx.failureConstant e
  | none => .ok "1"

/-- The body of a function of the shim. -/
def shimBody (ctx : Context) (op : Operation) : Except Fault (List Line) := do
  let cls := interfaceClass ctx
  let m := op.method
  match op.kind with
  | .constructor =>
    match m.returnedHandle? with
    | none => throw (.internal ("constructor " ++ m.name ++ " does not return a handle"))
    | some handle =>
      let failure ← failureText ctx m
      return Code.lines (m.parameters.map fun p => "(void)" ++ p.name ++ ";")
        ++ Code.lines [cls ++ "* instance = " ++ factory ctx ++ "();"]
        ++ Code.block "if (!instance)" (Code.lines ["return " ++ failure ++ ";"])
        ++ Code.lines [
          "*" ++ Abi.outName ++ " = reinterpret_cast<" ++ Naming.handleTypedef handle
            ++ ">(instance);",
          "return 0;"]
  | .destructor =>
    match m.parameters.head? with
    | none => throw (.internal ("destructor " ++ m.name ++ " has no parameter"))
    | some p => return Code.lines ["delete reinterpret_cast<" ++ cls ++ "*>(" ++ p.name ++ ");"]
  | .method =>
    let self := match m.parameters.head?, m.leadingHandle? with
      | some p, some _ => "reinterpret_cast<" ++ cls ++ "*>(" ++ p.name ++ ")"
      | _, _ => "default_instance()"
    let args ← m.parameters.mapM argument
    let out := if m.shape = .fallibleValue then [Abi.outName] else []
    let call := "self->" ++ methodName ctx op.interface m ++ "(" ++ Text.commaSep (args ++ out) ++ ");"
    return Code.lines [cls ++ "* self = " ++ self ++ ";",
      if m.shape = .infallibleVoid then call else "return " ++ call]

/-- A function of the shim. -/
def shimFunction (ctx : Context) (op : Operation) : Except Fault (List Line) := do
  let s ← Abi.Signature.ofOperation ctx.apiName op
  let body ← shimBody ctx op
  return s.lines (some (Naming.exportMacro ctx.apiName)) " \x7b"
    ++ Code.indent body ++ Code.lines ["\x7d", ""]

/-- Whether some method has no handle in front. -/
def needsDefault (api : Api) : Bool :=
  api.interfaces.any fun i => i.methods.any fun m => m.leadingHandle?.isNone

/-- The instance for methods without a handle in front. -/
def defaultInstance (ctx : Context) : List Line :=
  let cls := interfaceClass ctx
  Code.lines ["namespace \x7b", ""]
    ++ Code.block (cls ++ "* default_instance()")
      (Code.lines ["static " ++ cls ++ "* instance = " ++ factory ctx ++ "();", "return instance;"])
    ++ Code.lines ["", "\x7d // namespace", ""]

/-- The shim between the C symbols and the class. -/
def shim (ctx : Context) : Except Fault (List Line) := do
  let functions ← ctx.api.interfaces.mapM fun i => do
    let fs ← i.operations.mapM (shimFunction ctx)
    return Code.lines ["/* " ++ i.name ++ " */"] ++ fs.flatten
  return Code.lines ["#include \"" ++ ctx.apiName ++ "_interface.h\"",
      "#include \"" ++ ctx.apiName ++ ".h\"", ""]
    ++ (if needsDefault ctx.api then defaultInstance ctx else [])
    ++ Code.lines ["extern \"C\" \x7b", ""]
    ++ functions.flatten
    ++ Code.lines ["\x7d // extern \"C\""]

/-! ### The implementation -/

/-- The header of the implementation. -/
def implHeader (ctx : Context) (vs : List (Interface × List Virtual)) : List Line :=
  let guardName := Naming.upperSnake ctx.apiName ++ "_IMPL_H"
  let cls := implClass ctx
  Code.lines ["#ifndef " ++ guardName, "#define " ++ guardName, "",
      "#include \"" ++ ctx.apiName ++ "_interface.h\"", "",
      "class " ++ cls ++ " : public " ++ interfaceClass ctx ++ " \x7b", "public:"]
    ++ Code.indent (Code.lines [cls ++ "();", "~" ++ cls ++ "() override;"]
      ++ virtualLines "" " override;" vs)
    ++ Code.lines ["\x7d;", "", "#endif /* " ++ guardName ++ " */"]

/-- The implementation, ready to be filled in. -/
def implSource (ctx : Context) (vs : List (Interface × List Virtual)) : List Line :=
  let cls := implClass ctx
  let define (header : String) (body : List String) : List Line :=
    Code.block header (Code.lines body)
  Code.lines ["#include \"" ++ ctx.apiName ++ "_impl.h\"", ""]
    ++ define (cls ++ "::" ++ cls ++ "()") ["// TODO: initialise state"] ++ [Line.blank]
    ++ define (cls ++ "::~" ++ cls ++ "()") ["// TODO: release state"] ++ [Line.blank]
    ++ (vs.flatMap (·.2)).flatMap (fun v =>
      define (v.declaration (cls ++ "::")) ("// TODO: implement" :: v.placeholder) ++ [Line.blank])
    ++ define (interfaceClass ctx ++ "* " ++ factory ctx ++ "()") ["return new " ++ cls ++ "();"]

/-- The build file of the shared library. -/
def cmake (ctx : Context) : List Line :=
  let api := ctx.apiName
  let project := Text.replaceChar '_' "-" api
  Code.lines ["cmake_minimum_required(VERSION 3.15)",
      "project(" ++ project ++ " VERSION " ++ ctx.api.metadata.version ++ " LANGUAGES C CXX)", "",
      "set(CMAKE_CXX_STANDARD 20)", "set(CMAKE_CXX_STANDARD_REQUIRED ON)", "",
      "add_library(" ++ project ++ " SHARED"]
    ++ Code.indent (Code.lines [api ++ "_shim.cpp", api ++ "_impl.cpp"])
    ++ Code.lines [")", "",
      "target_compile_definitions(" ++ project ++ " PRIVATE " ++ Naming.buildMacro api ++ ")",
      "target_include_directories(" ++ project ++ " PRIVATE $\x7bCMAKE_CURRENT_SOURCE_DIR\x7d)"]

/-- The files of the skeleton. -/
def emit (ctx : Context) : Except Fault (List Artifact) := do
  let api := ctx.apiName
  let unit := Code.fourBlanks
  let vs ← virtuals ctx
  let shimLines ← shim ctx
  return [
    ctx.generatedFile (api ++ "_interface.h") unit (interfaceHeader ctx vs),
    ctx.generatedFile (api ++ "_shim.cpp") unit shimLines,
    ctx.scaffoldFile .slash (api ++ "_impl.h") unit (implHeader ctx vs),
    ctx.scaffoldFile .slash (api ++ "_impl.cpp") unit (implSource ctx vs),
    ctx.scaffoldFile .hash "CMakeLists.txt" unit (cmake ctx)]

end Bindery.Cpp
