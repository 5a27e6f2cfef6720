import Bindery.Text.Quoted

/-!
# Emitters

The thirteen emitters by name: the C header, the bindings of the platforms, the
skeletons of the implementation languages, their build files, and the platform
services.
-/

namespace Bindery

/-- A producer of generated files. -/
inductive Emitter where
  | cHeader
  | kotlin
  | swift
  | javaScript
  | cppSkeleton
  | rustSkeleton
  | goSkeleton
  | goWasm
  | cBuild
  | cppBuild
  | rustBuild
  | goBuild
  | platformServices
deriving DecidableEq, Repr

namespace Emitter

/-- Every emitter, bindings first. -/
def all : List Emitter :=
  [cHeader, kotlin, swift, javaScript, cppSkeleton, rustSkeleton, goSkeleton, goWasm,
    cBuild, cppBuild, rustBuild, goBuild, platformServices]

/-- The name under which an emitter is registered. -/
def name : Emitter → String
  | cHeader => "cheader"
  | kotlin => "kotlin"
  | swift => "swift"
  | javaScript => "jswasm"
  | cppSkeleton => "impl_cpp"
  | rustSkeleton => "impl_rust"
  | goSkeleton => "impl_go"
  | goWasm => "impl_go_wasm"
  | cBuild => "impl_c_build_system"
  | cppBuild => "impl_cpp_build_system"
  | rustBuild => "impl_rust_build_system"
  | goBuild => "impl_go_build_system"
  | platformServices => "impl_platform_services"

/-- The emitter with this name. -/
def ofName? (s : String) : Option Emitter := all.find? fun e => e.name == s

/-- An emitter as listings show it. -/
def describe (e : Emitter) : String := "Emitter \x7b name: " ++ Text.quoted e.name ++ " \x7d"

end Emitter

end Bindery
