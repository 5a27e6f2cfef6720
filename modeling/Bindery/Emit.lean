import Bindery.Emit.Build
import Bindery.Emit.Cpp
import Bindery.Emit.Go
import Bindery.Emit.Header
import Bindery.Emit.JavaScript
import Bindery.Emit.Kotlin
import Bindery.Emit.PlatformServices
import Bindery.Emit.Rust
import Bindery.Emit.Swift
import Bindery.Plan

/-!
# Running emitters

Each name in a plan stands for a function from the context to artifacts. A run of
several emitters stops at the first that gives up.
-/

namespace Bindery

/-- What an emitter makes of a description. -/
def Emitter.artifacts (e : Emitter) (ctx : Context) : Except Fault (List Artifact) :=
  match e with
  | cHeader => Header.emit ctx
  | kotlin => Kotlin.emit ctx
  | swift => Swift.emit ctx
  | javaScript => JavaScript.emit ctx
  | cppSkeleton => Cpp.emit ctx
  | goSkeleton => Go.emit ctx
  | goWasm => Go.emitWasm ctx
  | cBuild => Build.emitC ctx
  | cppBuild => Build.emit .cpp ctx
  | rustBuild => Build.emit .rust ctx
  | goBuild => Build.emit .go ctx
  | platformServices => PlatformServices.emit ctx
  | rustSkeleton => Rust.emit ctx

/-- Runs an emitter under its name. -/
def Emitter.emit (e : Emitter) (ctx : Context) : Except EmitError (List Artifact) :=
  tagged e.name (e.artifacts ctx)

/-- Runs emitters one after the other. -/
def emitAll (es : List Emitter) (ctx : Context) : Except EmitError (List Artifact) := do
  return (← es.mapM (·.emit ctx)).flatten

/-- Runs the emitters that the targets and the language of a description ask for. -/
def emitPlanned (ctx : Context) : Except EmitError (List Artifact) :=
  emitAll (plan ctx.api.effectiveTargets ctx.api.metadata.language) ctx

end Bindery
