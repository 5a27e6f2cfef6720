import Bindery.Emit.Kotlin.Bridge
import Bindery.Emit.Kotlin.Source

/-!
# The Kotlin binding

The Kotlin file and the C file of the bridge below it.
-/

namespace Bindery.Kotlin

/-- The files of the binding. -/
def emit (ctx : Context) : Except Fault (List Artifact) := do
  let source ← Source.ofContext ctx
  let bridge ← BridgeFile.ofContext ctx
  return [
    ctx.generatedFile (objectName ctx ++ ".kt") Code.fourBlanks (source.lines ctx),
    ctx.generatedFile (ctx.apiName ++ "_jni.c") Code.fourBlanks (bridge.lines ctx)]

end Bindery.Kotlin
