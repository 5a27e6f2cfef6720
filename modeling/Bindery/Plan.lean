import Bindery.Path
import Bindery.Registry
import Bindery.Vocabulary.Language
import Bindery.Vocabulary.Target

/-!
# What to generate

Targets and implementation language decide which emitters run, in which order,
and which languages the schema compiler is asked for. Each emitter and each
language appears once.
-/

namespace Bindery

/-! ### Emitters -/

/-- The binding of a target. -/
def Target.binding? : Target → Option Emitter
  | .android => some .kotlin
  | .ios | .macos => some .swift
  | .web => some .javaScript
  | .windows | .linux => none

/-- The emitters of an implementation language. -/
def Language.emitters : Language → List Emitter
  | .c => [.cBuild, .platformServices]
  | .cpp => [.cppSkeleton, .cppBuild, .platformServices]
  | .rust => [.rustSkeleton, .rustBuild, .platformServices]
  | .go => [.goSkeleton, .goBuild, .platformServices]

/-- The emitters to run, in order: the header, the bindings of the targets, the
files of the language, and the WebAssembly exports where Go meets the web. -/
def plan (targets : List Target) (language : Language) : List Emitter :=
  Text.distinct
    ([.cHeader] ++ targets.filterMap Target.binding? ++ language.emitters
      ++ if language = .go && targets.contains .web then [.goWasm] else [])

/-- The planned names that a registry does not know. -/
def unregistered (r : Registry) (es : List Emitter) : List String :=
  (es.map Emitter.name).filter fun n => !r.contains n

/-! ### The schema compiler -/

/-- A language of the schema compiler: its flag and its output directory. -/
structure SchemaLanguage where
  flag : String
  outDir : String
deriving DecidableEq, Repr

namespace SchemaLanguage

/-- The language with a flag of this name. -/
def named (name : String) : SchemaLanguage := ⟨"--" ++ name, "flatbuffers/" ++ name⟩

/-- The language of a target's binding. -/
def ofTarget? : Target → Option SchemaLanguage
  | .android => some (named "kotlin")
  | .ios | .macos => some (named "swift")
  | .web => some (named "ts")
  | .windows | .linux => none

/-- The schema compiler's name of an implementation language. -/
def ofLanguage? : Language → Option SchemaLanguage
  | .cpp => some (named "cpp")
  | .rust => some (named "rust")
  | .go => some (named "go")
  | .c => none

/-- The languages to compile schemas to: those of the targets, then that of the
implementation. -/
def needed (targets : List Target) (language : Language) : List SchemaLanguage :=
  Text.distinct (targets.filterMap ofTarget? ++ (ofLanguage? language).toList)

end SchemaLanguage

/-- One run of the schema compiler. -/
structure Invocation where
  language : SchemaLanguage
  args : List String
deriving DecidableEq, Repr

/-- The run as a command line. -/
def Invocation.display (i : Invocation) (binary : String) : String :=
  " ".intercalate (binary :: i.args)

/-- The runs for some schema files. -/
def invocations (targets : List Target) (language : Language) (schemaFiles : List String)
    (outputDir : String) : List Invocation :=
  (SchemaLanguage.needed targets language).map fun l =>
    ⟨l, [l.flag, "-o", Path.join outputDir l.outDir] ++ schemaFiles⟩

end Bindery
