import Bindery.Emit.Go.Cgo
import Bindery.Emit.Go.Package
import Bindery.Emit.Go.Wasm

/-!
# The Go skeleton

The package with its cgo shim, and the WebAssembly exports for the same package.
-/

namespace Bindery.Go

/-- The files of the package and the cgo build. The types are left out when the
schema has none. -/
def emit (ctx : Context) : Except Fault (List Artifact) := do
  let api := ctx.apiName
  let unit := Code.tab
  let decls ← interfaceDecls ctx.api
  let exports ← cgoExports ctx
  let impls ← ctx.api.handles.mapM fun h => HandleImpl.ofHandle ctx h.name
  return [
      ctx.generatedFile (api ++ "_interface.go") unit (interfaceFile decls),
      ctx.generatedFile (api ++ "_cgo.go") unit (cgoFile ctx exports)]
    ++ (if ctx.types.size = 0 then []
      else [ctx.generatedFile (api ++ "_types.go") unit (typesFile ctx)])
    ++ [
      (ctx.scaffoldFile .slash (api ++ "_impl.go") unit (implFile impls)).inProject,
      (ctx.scaffoldFile .slash "go.mod" unit (modFile ctx)).inProject,
      (ctx.scaffoldFile .hash ".gitignore" unit (ignoreFile ctx)).inProject]

/-- The file of the WebAssembly build. -/
def emitWasm (ctx : Context) : Except Fault (List Artifact) := do
  let f ← WasmFile.ofContext ctx
  return [ctx.generatedFile (ctx.apiName ++ "_wasm.go") Code.tab f.lines]

end Bindery.Go
