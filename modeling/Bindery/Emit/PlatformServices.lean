import Bindery.Abi.Service
import Bindery.Emit.Context

/-!
# Stubs of the platform services

One C file for each family of platforms. Log lines go where the platform shows
them, and there are no resources. The files belong to the user.
-/

namespace Bindery

/-- A family of platforms that shares packaging and platform services. -/
inductive Platform where
  | desktop | ios | android | web
deriving DecidableEq, Repr

namespace Platform

/-- The name of the family. -/
def family : Platform → String
  | desktop => "desktop" | ios => "ios" | android => "android" | web => "web"

/-- The families of some targets, in a fixed order. -/
def ofTargets (targets : List Target) : List Platform :=
  (if targets.any Target.isDesktop then [desktop] else [])
    ++ (if targets.contains .ios then [ios] else [])
    ++ (if targets.contains .android then [android] else [])
    ++ if targets.contains .web then [web] else []

/-- The directory of the stubs. -/
def servicesDir : String := "platform_services"

/-- The file of a stub. -/
def servicesFile (p : Platform) : String := servicesDir ++ "/" ++ p.family ++ ".c"

/-- What a stub does, in a sentence. -/
def summary : Platform → String
  | desktop => "Desktop (Windows, macOS, Linux) platform services. Logging goes to stderr."
  | ios => "iOS platform services. Logging uses os_log."
  | android => "Android platform services. Logging uses __android_log_print."
  | web => "WebAssembly platform services, compiled into the module. All no-ops."

/-- The headers of a stub. -/
def includes : Platform → List String
  | desktop => ["<stdint.h>", "<stdio.h>"]
  | ios => ["<stdint.h>", "<os/log.h>"]
  | android => ["<stdint.h>", "<android/log.h>"]
  | web => ["<stdint.h>"]

/-- The statements that write a log line. -/
def logBody : Platform → List String
  | desktop => ["fprintf(stderr, \"[%d] %s: %s\\n\", level, tag, message);"]
  | ios =>
    ["os_log_type_t type = level <= 1 ? OS_LOG_TYPE_DEBUG : OS_LOG_TYPE_DEFAULT;",
      "os_log_with_type(OS_LOG_DEFAULT, type, \"[%\x7bpublic\x7ds] %\x7bpublic\x7ds\", tag, message);"]
  | android =>
    ["int prio = level <= 1 ? ANDROID_LOG_DEBUG : ANDROID_LOG_INFO;",
      "__android_log_print(prio, tag, \"%s\", message);"]
  | web => ["(void)level;", "(void)tag;", "(void)message;"]

end Platform

namespace PlatformServices

/-- The statements that report no resources: counts and sizes are zero, look-ups
fail. -/
def resourceBody (s : Abi.Service) : List String :=
  let value := if s.name = "resource_name" || s.name = "resource_read" then "-1" else "0"
  s.params.map (fun p => "(void)" ++ p.2 ++ ";") ++ ["return " ++ value ++ ";"]

/-- The lines of a service. -/
def serviceLines (api : String) (p : Platform) (s : Abi.Service) : List Line :=
  Code.block (s.answer ++ " " ++ s.symbol api ++ "(" ++ s.paramList ++ ")")
      (Code.lines (if s.name = "log_sink" then p.logBody else resourceBody s))
    ++ [Line.blank]

/-- The lines of a stub. -/
def stubLines (api : String) (p : Platform) : List Line :=
  Code.lines (["/* " ++ p.summary ++ " */", ""] ++ p.includes.map ("#include " ++ ·) ++ [""])
    ++ Abi.services.flatMap (serviceLines api p)

/-- The stubs of the families that a description is generated for. -/
def emit (ctx : Context) : Except Fault (List Artifact) :=
  .ok ((Platform.ofTargets ctx.api.effectiveTargets).map fun p =>
    (ctx.scaffoldFile .slash p.servicesFile Code.fourBlanks (stubLines ctx.apiName p)).inProject)

end PlatformServices

end Bindery
