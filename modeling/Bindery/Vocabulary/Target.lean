/-!
# Target platforms

The platforms that bindings are generated for.
-/

namespace Bindery

/-- A platform the bindings run on. -/
inductive Target where
  | android | ios | web | windows | macos | linux
deriving DecidableEq, Repr

namespace Target

/-- Every target, in default order. -/
def all : List Target := [android, ios, web, windows, macos, linux]

/-- The spelling in descriptions. -/
def name : Target → String
  | android => "android" | ios => "ios" | web => "web"
  | windows => "windows" | macos => "macos" | linux => "linux"

/-- What is generated for the target, in a sentence. -/
def description : Target → String
  | android => "Kotlin/JNI binding over the C ABI."
  | ios | macos => "Swift binding over the C ABI."
  | web => "ES module loading a WebAssembly binary."
  | windows | linux => "C header consumed directly."

/-- Desktop targets share one set of platform services. -/
def isDesktop : Target → Bool
  | windows | macos | linux => true
  | _ => false

/-- The target with this spelling. -/
def ofName? (s : String) : Option Target :=
  all.find? fun t => t.name == s

end Target

end Bindery
