import Bindery.Abi.Signature
import Bindery.Artifact
import Bindery.Banner
import Bindery.Schema.Basic

/-!
# What every emitter reads

An emitter is a function of a `Context`: the description, the schema types, where
the description came from, and the name of the directory of generated files.
-/

namespace Bindery

/-- The input of every emitter. -/
structure Context where
  api : Api
  types : Schema
  /-- The path of the description, if it was read from a file. -/
  source : Option String := none
  generatedDir : String := defaultOutputName

namespace Context

/-- The name of the description. -/
def apiName (ctx : Context) : String := ctx.api.name

/-- The name of the description in Pascal case. -/
def pascalApi (ctx : Context) : String := Naming.pascalCase ctx.apiName

/-- The file name that banners show. -/
def sourceName (ctx : Context) : String :=
  (ctx.source >>= Path.fileName?).getD (ctx.apiName ++ ".yaml")

/-- The banner of a generated file. -/
def generatedBanner (ctx : Context) (style : Banner.Style) : String :=
  Banner.generated style ctx.sourceName

/-- The banner of a scaffold. -/
def scaffoldBanner (ctx : Context) (style : Banner.Style) : String :=
  Banner.scaffold style ctx.sourceName

/-- A file that is written again on every run: the banner, then the code. -/
def generatedFile (ctx : Context) (path unit : String) (code : List Line) : Artifact where
  path
  content := ctx.generatedBanner .slash ++ Code.render unit code

/-- A file that belongs to the user: the banner, then the code. -/
def scaffoldFile (ctx : Context) (style : Banner.Style) (path unit : String) (code : List Line) :
    Artifact where
  path
  content := ctx.scaffoldBanner style ++ Code.render unit code
  isScaffold := true

/-- The definition of a type. -/
def typeDef (ctx : Context) (name : String) : Except Fault TypeDef :=
  match ctx.types.get? name with
  | some d => .ok d
  | none => .error (.missingType name)

/-- Whether a name is that of an enumeration. -/
def isEnum (ctx : Context) (name : String) : Bool := ctx.types.isEnum name

/-- The value that reports a failure without a better name: the one called
`InternalError`, else the first that is not zero. -/
def failureValue (ctx : Context) (errorType : String) : Except Fault EnumValue := do
  let d ← ctx.typeDef errorType
  match d.values.find? (·.name == "InternalError") <|> d.values.find? (·.value ≠ 0) with
  | some v => return v
  | none => throw (.internal ("error enum " ++ errorType ++ " has no failure value"))

/-- The C constant of that value. -/
def failureConstant (ctx : Context) (errorType : String) : Except Fault String := do
  let v ← ctx.failureValue errorType
  return Naming.cTypeName errorType ++ "_" ++ v.name

/-- The schema type that a text names. -/
def qualified? (ty : String) : Option String :=
  TypeRef.ofString? ty >>= TypeRef.qualifiedName?

/-- The schema types that operations return, in order of first use. -/
def returnedTypes (ctx : Context) : List String :=
  Text.distinct (ctx.api.authored.filterMap fun m => m.returnType? >>= qualified?)

/-- The types of the parameters and the result of a method. -/
def mentionedTypes (m : Method) : List String :=
  m.parameters.map (·.type) ++ m.returnType?.toList

/-- The records that cross the boundary, in order of first use. -/
def boundaryRecords (ctx : Context) : List String :=
  Text.distinct ((ctx.api.authored.flatMap mentionedTypes).filterMap fun ty =>
    (qualified? ty).filter ctx.types.isRecord)

end Context

end Bindery
