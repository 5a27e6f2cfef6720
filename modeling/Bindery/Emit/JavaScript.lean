import Bindery.Abi.Service
import Bindery.Emit.JavaScript.Prelude
import Bindery.Emit.JavaScript.Wrapper

/-!
# The JavaScript binding

One module with helpers for linear memory, codecs for records, a class for each
handle, the functions that the host provides, a loader, and one object of wrappers
for each interface.
-/

namespace Bindery.JavaScript

/-! ### Handles -/

/-- The class of a handle. -/
structure HandleClass where
  handle : Handle
  /-- The exported function that ends the life of the handle. -/
  destructor : Option String
deriving DecidableEq, Repr

namespace HandleClass

/-- The class of a handle. -/
def ofHandle (api : Api) (h : Handle) : HandleClass := ⟨h, api.destructorSymbol? h.name⟩

/-- The call that ends the life of the handle. -/
def disposal? (c : HandleClass) : Option ExportCall := c.destructor.map (⟨·, ["this.#ptr"]⟩)

/-- The lines of the class. -/
def lines (c : HandleClass) : List Line :=
  let name := c.handle.name
  Code.lines (c.handle.description.toList.map fun d => "/** " ++ d ++ " */")
    ++ Code.block ("class " ++ name)
      (Code.lines ["#ptr;", "", "/** @internal */"]
        ++ Code.block "constructor(ptr)" (Code.lines ["this.#ptr = ptr;"])
        ++ Code.lines ["", "/** @internal */"]
        ++ Code.block "get _ptr()"
          (Code.block "if (this.#ptr === 0)"
              (Code.lines ["throw new Error('" ++ name ++ " has been disposed');"])
            ++ Code.lines ["return this.#ptr;"])
        ++ [Line.blank]
        ++ Code.block "dispose()" (Code.block "if (this.#ptr !== 0)"
          (Code.lines (c.disposal?.toList.map fun call => call.text ++ ";")
            ++ Code.lines ["this.#ptr = 0;"]))
        ++ [Line.blank]
        ++ Code.block "close()" (Code.lines ["this.dispose();"])
        ++ [Line.blank]
        ++ Code.block "[Symbol.dispose]()" (Code.lines ["this.dispose();"]))
    ++ [Line.blank]

end HandleClass

/-! ### What the host provides -/

/-- A function that the host provides to the module. -/
structure HostFunction where
  /-- The platform service. -/
  service : String
  params : List String
  /-- Statements, or one expression in parentheses. -/
  body : List Line ⊕ String
deriving DecidableEq, Repr

/-- The six platform services. -/
def hostFunctions : List HostFunction :=
  [ ⟨"log_sink", ["level", "tagPtr", "msgPtr"], .inl (Code.block "if (services.logSink)"
      (Code.lines ["services.logSink(level, _decodeString(tagPtr), _decodeString(msgPtr));"]))⟩,
    ⟨"resource_count", [], .inr "(services.resourceCount ? services.resourceCount() : 0)"⟩,
    ⟨"resource_name", ["index", "bufferPtr", "bufferSize"], .inl (Code.lines [
      "if (!services.resourceName) return -1;",
      "const name = services.resourceName(index);",
      "if (!name) return -1;",
      "const bytes = _encoder.encode(name);",
      "if (bytes.length + 1 > bufferSize) return -1;",
      "const dest = new Uint8Array(_memoryBuffer(), bufferPtr, bufferSize);",
      "dest.set(bytes);",
      "dest[bytes.length] = 0;",
      "return bytes.length;"])⟩,
    ⟨"resource_exists", ["namePtr"], .inl (Code.lines [
      "if (!services.resourceExists) return 0;",
      "return services.resourceExists(_decodeString(namePtr)) ? 1 : 0;"])⟩,
    ⟨"resource_size", ["namePtr"], .inl (Code.lines [
      "if (!services.resourceSize) return 0;",
      "return services.resourceSize(_decodeString(namePtr));"])⟩,
    ⟨"resource_read", ["namePtr", "bufferPtr", "bufferSize"], .inl (Code.lines [
      "if (!services.resourceRead) return -1;",
      "const data = services.resourceRead(_decodeString(namePtr));",
      "if (!data || data.byteLength > bufferSize) return -1;",
      "const bytes = ArrayBuffer.isView(data)",
      "  ? new Uint8Array(data.buffer, data.byteOffset, data.byteLength)",
      "  : new Uint8Array(data);",
      "new Uint8Array(_memoryBuffer(), bufferPtr, bufferSize).set(bytes);",
      "return bytes.length;"])⟩ ]

/-- The key of a host function. -/
def HostFunction.key (api : String) (f : HostFunction) : String := Naming.serviceSymbol api f.service

/-- The lines of a host function. -/
def HostFunction.lines (api : String) (f : HostFunction) : List Line :=
  let head := f.key api ++ ": (" ++ Text.commaSep f.params ++ ") =>"
  match f.body with
  | .inl body => Code.blockWith head "\x7d," body
  | .inr expression => Code.lines [head ++ " " ++ expression ++ ","]

/-- The object of everything that the host provides. -/
def importLines (api : String) : List Line :=
  [Code.comment "Platform services, provided to the module as `env` imports"]
    ++ Code.block "function _buildPlatformImports(services)"
      (Code.lines ["services = services || \x7b\x7d;"]
        ++ Code.blockWith "return" "\x7d;"
          (Code.blockWith "env:" "\x7d," (hostFunctions.flatMap (HostFunction.lines api))
            ++ Code.lines ["wasi_snapshot_preview1: _buildWasiImports(),"]))
    ++ [Line.blank]

/-! ### The loader -/

/-- The function that loads the module. -/
def loaderName (api : String) : String := Naming.camelCase ("load_" ++ api)

/-- The start of a reactor. -/
def initializeCall : ExportCall := ⟨"_initialize", []⟩

/-- The start of a command. -/
def startCall : ExportCall := ⟨"_start", []⟩

/-- The start of the module, as a reactor or as a command, whichever it is. -/
def startLines : List Line :=
  [Code.comment "Reactor modules export _initialize. Command modules export _start, whose",
      Code.comment "proc_exit(0) throws to unwind; exit code 0 is a successful start."]
    ++ Code.blockWith ("if (" ++ initializeCall.function ++ ")")
      ("\x7d else if (" ++ startCall.function ++ ") \x7b") (Code.lines [initializeCall.text ++ ";"])
    ++ Code.indent (Code.blockWith "try" "\x7d catch (e) \x7b" (Code.lines [startCall.text ++ ";"])
      ++ Code.indent (Code.lines ["if (!e || e.wasiExitCode !== 0) throw e;"])
      ++ Code.lines ["\x7d"])
    ++ Code.lines ["\x7d"]

/-- The loader. It takes a compiled module, a response or its address, or bytes. -/
def loaderLines (ctx : Context) : List Line :=
  let interfaces := ctx.api.interfaces.map fun i =>
    identifier i.name ++ ": _create" ++ Naming.pascalCase i.name ++ "(),"
  let deep (texts : List String) : List Line := Code.indent (Code.lines texts)
  [Code.comment "Instantiate the module and return one wrapper object per interface."]
    ++ Code.block ("async function " ++ loaderName ctx.apiName ++ "(wasmSource, platformServices)")
      (Code.lines ["const imports = _buildPlatformImports(platformServices);",
          "if (wasmSource instanceof WebAssembly.Module) \x7b"]
        ++ deep ["_wasm = await WebAssembly.instantiate(wasmSource, imports);"]
        ++ Code.lines [
          "\x7d else if (wasmSource instanceof Response || typeof wasmSource === 'string') \x7b"]
        ++ deep [
          "const response = typeof wasmSource === 'string' ? fetch(wasmSource) : wasmSource;",
          "_wasm = (await WebAssembly.instantiateStreaming(response, imports)).instance;"]
        ++ Code.lines [
          "\x7d else if (wasmSource instanceof ArrayBuffer || ArrayBuffer.isView(wasmSource)) \x7b"]
        ++ deep ["_wasm = (await WebAssembly.instantiate(wasmSource, imports)).instance;"]
        ++ Code.block "\x7d else" (Code.lines [
          "throw new Error('wasmSource must be a URL string, Response, WebAssembly.Module, or ArrayBuffer');"])
        ++ startLines
        ++ Code.blockWith "return" "\x7d;" (Code.lines interfaces))
    ++ [Line.blank]

/-! ### Interfaces -/

/-- Groups of lines with an empty line between them. -/
def spaced : List (List Line) → List Line
  | [] => []
  | g :: rest => g ++ rest.flatMap fun h => [Line.blank] ++ h

/-- The object of wrappers of an interface. -/
def interfaceLines (i : Interface) (ws : List Wrapper) : List Line :=
  [Code.comment (i.name ++ " interface")]
    ++ Code.block ("function _create" ++ Naming.pascalCase i.name ++ "()")
      (Code.blockWith "return" "\x7d;" (spaced (ws.map Wrapper.lines)))
    ++ [Line.blank]

/-! ### The module -/

/-- What the module holds besides its fixed parts. -/
structure Module where
  codecs : List Codec
  classes : List HandleClass
  interfaces : List (Interface × List Wrapper)
deriving DecidableEq, Repr

/-- The module of a description. -/
def Module.ofContext (ctx : Context) : Except Fault Module := do
  let codecs ← Codec.all ctx.types
  let interfaces ← ctx.api.interfaces.mapM fun i => do return (i, ← wrappers ctx i)
  return { codecs, classes := ctx.api.handles.map (HandleClass.ofHandle ctx.api), interfaces }

/-- The lines of the module. -/
def Module.lines (ctx : Context) (m : Module) : List Line :=
  memoryHelpers
    ++ codecLines m.codecs
    ++ (if m.classes.isEmpty then []
      else [Code.comment "Handle wrapper classes"] ++ m.classes.flatMap HandleClass.lines)
    ++ systemInterface
    ++ importLines ctx.apiName
    ++ loaderLines ctx
    ++ m.interfaces.flatMap (fun (i, ws) => interfaceLines i ws)
    ++ [Code.comment "Exports"]
    ++ Code.lines ((loaderName ctx.apiName :: ctx.api.handles.map (·.name)).map fun n =>
      "export \x7b " ++ n ++ " \x7d;")

/-- The files of the binding. -/
def emit (ctx : Context) : Except Fault (List Artifact) := do
  let m ← Module.ofContext ctx
  return [ctx.generatedFile (ctx.apiName ++ ".js") Code.twoBlanks (m.lines ctx)]

end Bindery.JavaScript
