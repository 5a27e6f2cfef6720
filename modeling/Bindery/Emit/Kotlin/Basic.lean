import Bindery.Emit.Context
import Bindery.Schema.Closure

/-!
# Types on the Java virtual machine

How each type of a description appears in Kotlin, in the declaration of a native
function, and on the C side of the native interface. Enumerations travel as
integers, handles as their address, records as objects of a data class.
-/

namespace Bindery.Kotlin

/-! ### Names -/

/-- The reserved words. -/
def keywords : List String :=
  ["as", "break", "class", "continue", "do", "else", "false", "for", "fun", "if", "in",
    "interface", "is", "null", "object", "package", "return", "super", "this", "throw", "true",
    "try", "typealias", "typeof", "val", "var", "when", "while"]

/-- A name in Kotlin: camel case, between backticks when it is reserved. -/
def identifier (name : String) : String :=
  let camel := Naming.camelCase name
  if keywords.contains camel then "`" ++ camel ++ "`" else camel

/-- The exception of an error enumeration. -/
def exceptionName (errorType : String) : String := Naming.flatTypeName errorType ++ "Exception"

/-- The package of an interface. -/
def package (ctx : Context) : String := Naming.kotlinPackage ctx.apiName

/-- The object that holds the native functions. -/
def objectName (ctx : Context) : String := ctx.pascalApi

/-- A class with its package, as the native interface looks it up. -/
def classPath (ctx : Context) (cls : String) : String :=
  Text.replaceChar '.' "/" (package ctx) ++ "/" ++ cls

/-- The native function of an operation. -/
def bridgeName (op : Operation) : String := "native" ++ op.pascalName

/-- The symbol under which the virtual machine looks for a native function. -/
def bridgeSymbol (ctx : Context) (name : String) : String :=
  Naming.jniSymbol (package ctx) (objectName ctx) name

/-! ### Types -/

/-- How a value crosses between Kotlin and C. -/
inductive JvmType where
  | scalar (p : Primitive)
  | text
  | array (element : Primitive)
  | handle (name : String)
  | enum (name : String)
  | record (name : String)
deriving DecidableEq, Repr

namespace JvmType

/-- The type in Kotlin. -/
def kotlin : JvmType → String
  | scalar p => p.row.kotlin
  | text => "String"
  | array p => p.row.kotlinArray
  | handle h => h
  | enum _ => "Int"
  | record q => Naming.flatTypeName q

/-- The type in the declaration of a native function. -/
def external : JvmType → String
  | handle _ => "Long"
  | t => t.kotlin

/-- The type on the C side. -/
def jni : JvmType → String
  | scalar p => p.row.jni
  | text => "jstring"
  | array p => p.row.jniArray
  | handle _ => "jlong"
  | enum _ => "jint"
  | record _ => "jobject"

/-- How a type of a description crosses. -/
def ofText (ctx : Context) (ty : String) : Except Fault JvmType := do
  match ← Abi.classify ty with
  | .primitive p => return scalar p
  | .string => return text
  | .buffer p => return array p
  | .handle h => return handle h
  | .qualified q =>
    let d ← ctx.typeDef q
    if d.isEnum then return enum q
    else if d.isRecord then return record q
    else throw (.unsupported (q ++ " is a " ++ d.kind.name ++ " and has no JVM mapping"))

/-- How the result of a method crosses. -/
def ofReturn (ctx : Context) (m : Method) : Except Fault (Option JvmType) :=
  match m.returns with
  | none => .ok none
  | some r => (ofText ctx r.type).map some

end JvmType

/-! ### Records -/

/-- The records that parameters name, with those inside them. -/
def passedRecords (ctx : Context) : List String :=
  let named := ctx.api.authored.flatMap fun m => m.parameters.filterMap fun p =>
    Context.qualified? p.type
  ctx.types.recordClosure (Text.distinct named)

/-- The records that operations return, with those inside them. -/
def returnedRecords (ctx : Context) : List String :=
  ctx.types.recordClosure ctx.returnedTypes

/-- The fault of a vector whose elements are no scalars. -/
def vectorFault (record : String) (element : FieldType) : Fault :=
  .unsupported (record ++ ": vectors of " ++ element.text ++ " have no JNI mapping")

/-- The type of a field in Kotlin. -/
def fieldType (ctx : Context) (record : String) : FieldType → Except Fault String
  | .primitive p => .ok p.row.kotlin
  | .string => .ok "String"
  | .vector (.primitive p) => .ok p.row.kotlinArray
  | .vector element => .error (vectorFault record element)
  | .named n =>
    if ctx.isEnum n then .ok "Int"
    else if ctx.types.isRecord n then .ok (Naming.flatTypeName n)
    else .error (.unsupported (record ++ ": field type " ++ n ++ " has no JVM mapping"))

/-- The descriptor of a field of a data class. -/
def fieldDescriptor (ctx : Context) : FieldType → String
  | .primitive p => p.row.descriptor
  | .string => "Ljava/lang/String;"
  | .vector element => "[" ++ fieldDescriptor ctx element
  | .named n =>
    if ctx.isEnum n then "I" else "L" ++ classPath ctx (Naming.flatTypeName n) ++ ";"

end Bindery.Kotlin
