import Bindery.Emit.Kotlin.Basic

/-!
# The bridge in C

For each native function there is a C function that the virtual machine calls. It
turns its parameters into arguments of the C interface, calls, releases what it
borrowed, and turns the result into what the declaration promises. Records are
built and read field by field with helpers that come before the functions.
-/

namespace Bindery.Kotlin

/-! ### Arguments -/

/-- An argument of the call into the C interface. -/
inductive BridgeArg where
  /-- The bytes of a text. -/
  | text (name : String)
  | elements (p : Primitive) (writable : Bool) (name : String)
  | length (name : String)
  | handle (type name : String)
  | scalar (p : Primitive) (name : String)
  | enum (type name : String)
  | record (byAddress : Bool) (name : String)
  /-- Where the result goes. -/
  | result
deriving DecidableEq, Repr

namespace BridgeArg

/-- The C expression. -/
def c : BridgeArg → String
  | text n => "c_" ++ n
  | elements p writable n =>
    (if writable then "(" else "(const ") ++ p.row.c ++ " *)" ++ n ++ "_elems"
  | length n => "(uint32_t)" ++ n ++ "_len"
  | handle h n => "(" ++ Naming.handleTypedef h ++ ")(intptr_t)" ++ n
  | scalar .bool n => n ++ " == JNI_TRUE"
  | scalar p n => "(" ++ p.row.c ++ ")" ++ n
  | enum q n => "(" ++ Naming.cTypeName q ++ ")" ++ n
  | record true n => "&c_" ++ n
  | record false n => "c_" ++ n
  | result => "&" ++ Abi.outName

end BridgeArg

/-- What a parameter takes: statements before the call, arguments, and statements
after it. -/
structure Crossing where
  setup : List String := []
  args : List BridgeArg
  cleanup : List String := []
deriving DecidableEq, Repr

/-- How a parameter is brought to the C interface. -/
def crossing (p : Parameter) (t : JvmType) : Crossing :=
  let n := p.name
  match t with
  | .text =>
    { setup := ["const char *c_" ++ n ++ " = (*env)->GetStringUTFChars(env, " ++ n ++ ", NULL);"]
      args := [.text n]
      cleanup := ["(*env)->ReleaseStringUTFChars(env, " ++ n ++ ", c_" ++ n ++ ");"] }
  | .array e =>
    let writable := p.effectiveTransfer.isMut
    let accessor := e.row.arrayAccessor
    { setup :=
        [e.row.jni ++ " *" ++ n ++ "_elems = (*env)->Get" ++ accessor ++ "ArrayElements(env, " ++ n
            ++ ", NULL);",
          "jsize " ++ n ++ "_len = (*env)->GetArrayLength(env, " ++ n ++ ");"]
      args := [.elements e writable n, .length n]
      cleanup :=
        ["(*env)->Release" ++ accessor ++ "ArrayElements(env, " ++ n ++ ", " ++ n ++ "_elems, "
          ++ (if writable then "0" else "JNI_ABORT") ++ ");"] }
  | .handle h => { args := [.handle h n] }
  | .scalar q => { args := [.scalar q n] }
  | .enum q => { args := [.enum q n] }
  | .record q =>
    let flat := Naming.flatTypeName q
    { setup := [Naming.cTypeName q ++ " c_" ++ n ++ ";",
        flat ++ "_from_java(env, " ++ n ++ ", &c_" ++ n ++ ");"]
      args := [.record (p.effectiveTransfer ≠ .value) n]
      cleanup := [flat ++ "_release(&c_" ++ n ++ ");"] }

/-! ### Functions -/

/-- What a bridge does with the result of the call. -/
inductive BridgeOutcome where
  | done
  | status
  /-- A result without a status. -/
  | value (t : JvmType) (c : String)
  /-- A status, and a record that is built if there is no failure. -/
  | thrown (record pointee exceptionClass : String)
  /-- A status and a payload. -/
  | pair (t : JvmType) (pointee : String)
deriving DecidableEq, Repr

/-- A function that the virtual machine calls. -/
structure Bridge where
  symbol : String
  answer : String
  /-- Types and names after the environment and the receiver. -/
  params : List (String × String)
  setup : List String
  /-- The function of the C interface. -/
  callee : String
  args : List BridgeArg
  cleanup : List String
  outcome : BridgeOutcome
deriving DecidableEq, Repr

namespace Bridge

/-- What the function returns. -/
def answerType (fallible : Bool) : Option JvmType → String
  | none => if fallible then "jint" else "void"
  | some (.record _) => "jobject"
  | some t => if fallible then "jlongArray" else t.jni

/-- What is done with the result. -/
def outcomeOf (ctx : Context) (s : Abi.Signature) (m : Method) (ret : Option JvmType) :
    Except Fault BridgeOutcome :=
  match m.error, ret with
  | none, none => .ok .done
  | some _, none => .ok .status
  | none, some t => .ok (.value t s.answer.c)
  | some e, some t =>
    match s.out with
    | none => .error (.internal (m.name ++ " has no out-parameter"))
    | some v =>
      match t with
      | .record q => .ok (.thrown q v.c (classPath ctx (exceptionName e)))
      | t => .ok (.pair t v.c)

/-- The bridge of an operation. -/
def ofOperation (ctx : Context) (op : Operation) : Except Fault Bridge := do
  let m := op.method
  let s ← Abi.Signature.ofOperation ctx.apiName op
  let ret ← JvmType.ofReturn ctx m
  let types ← m.parameters.mapM fun p => do return (p, ← JvmType.ofText ctx p.type)
  let crossings := types.map fun (p, t) => crossing p t
  let outcome ← outcomeOf ctx s m ret
  return {
    symbol := bridgeSymbol ctx (bridgeName op)
    answer := answerType m.isFallible ret
    params := types.map fun (p, t) => (t.jni, p.name)
    setup := crossings.flatMap (·.setup)
    callee := s.symbol
    args := crossings.flatMap (·.args) ++ if s.out.isSome then [.result] else []
    cleanup := crossings.flatMap (·.cleanup)
    outcome }

/-- The call into the C interface. -/
def call (b : Bridge) : String :=
  b.callee ++ "(" ++ Text.commaSep (b.args.map BridgeArg.c) ++ ");"

/-- The statements that put a result into the payload. Fractions keep their bits. -/
def payloadLines : JvmType → List String
  | .scalar .float32 =>
    ["int32_t bits;", "memcpy(&bits, &" ++ Abi.outName ++ ", sizeof bits);",
      "values[1] = (jlong)bits;"]
  | .scalar .float64 => ["memcpy(&values[1], &" ++ Abi.outName ++ ", sizeof " ++ Abi.outName ++ ");"]
  | .handle _ => ["values[1] = (jlong)(intptr_t)" ++ Abi.outName ++ ";"]
  | _ => ["values[1] = (jlong)" ++ Abi.outName ++ ";"]

/-- A result of the C interface as the virtual machine wants it. -/
def convert : JvmType → String
  | .handle _ => "(jlong)(intptr_t)result"
  | .scalar .bool => "result ? JNI_TRUE : JNI_FALSE"
  | t => "(" ++ t.jni ++ ")result"

/-- The statement that builds a returned record. -/
def buildRecord (record : String) : String :=
  "return " ++ Naming.flatTypeName record ++ "_to_java(env, &" ++ Abi.outName ++ ");"

/-- The call, the release of what was borrowed, and the result. -/
def callLines (b : Bridge) : List Line :=
  match b.outcome with
  | .done => Code.lines (b.call :: b.cleanup)
  | .status => Code.lines (["int32_t rc = " ++ b.call] ++ b.cleanup ++ ["return (jint)rc;"])
  | .value (.record q) c =>
    Code.lines ([c ++ " " ++ Abi.outName ++ " = " ++ b.call] ++ b.cleanup ++ [buildRecord q])
  | .value t c =>
    Code.lines ([c ++ " result = " ++ b.call] ++ b.cleanup ++ ["return " ++ convert t ++ ";"])
  | .thrown q pointee exceptionClass =>
    Code.lines ([pointee ++ " " ++ Abi.outName ++ ";", "int32_t rc = " ++ b.call] ++ b.cleanup)
      ++ Code.block "if (rc != 0)"
        (Code.lines ["throw_error(env, \"" ++ exceptionClass ++ "\", rc);", "return NULL;"])
      ++ Code.lines [buildRecord q]
  | .pair t pointee =>
    Code.lines ([pointee ++ " " ++ Abi.outName ++ ";", "int32_t rc = " ++ b.call] ++ b.cleanup
        ++ ["jlong values[2] = \x7b (jlong)rc, 0 \x7d;"])
      ++ Code.block "if (rc == 0)" (Code.lines (payloadLines t))
      ++ Code.lines ["jlongArray arr = (*env)->NewLongArray(env, 2);"]
      ++ Code.block "if (arr != NULL)"
        (Code.lines ["(*env)->SetLongArrayRegion(env, arr, 0, 2, values);"])
      ++ Code.lines ["return arr;"]

/-- The lines of the function. -/
def lines (b : Bridge) : List Line :=
  let params := ["JNIEnv *env", "jobject thiz"] ++ b.params.map fun p => p.1 ++ " " ++ p.2
  Code.lines ["JNIEXPORT " ++ b.answer ++ " JNICALL"]
    ++ Code.block (b.symbol ++ "(" ++ Text.commaSep params ++ ")")
      (Code.lines ("(void)thiz;" :: b.setup) ++ b.callLines)
    ++ [Line.blank]

end Bridge

/-! ### Building records -/

/-- The helper that builds an object from a record. -/
structure ToJava where
  record : String
  /-- The descriptors of the fields, one after the other. -/
  descriptors : List String
  /-- Statements that prepare the fields. -/
  setup : List Line
  /-- What is passed to the constructor. -/
  args : List String
deriving DecidableEq, Repr

namespace ToJava

/-- What a field takes: statements before the construction, and the argument. -/
def field (ctx : Context) (record : String) (f : Field) : Except Fault (List Line × String) :=
  let n := f.name
  match f.type with
  | .primitive p => .ok ([], "(" ++ p.row.jni ++ ")value->" ++ n)
  | .string =>
    .ok (Code.lines ["jstring j_" ++ n ++ " = (*env)->NewStringUTF(env, value->" ++ n
      ++ " != NULL ? value->" ++ n ++ " : \"\");"], "j_" ++ n)
  | .vector (.primitive p) =>
    let accessor := p.row.arrayAccessor
    .ok (Code.lines [p.row.jniArray ++ " j_" ++ n ++ " = (*env)->New" ++ accessor
        ++ "Array(env, (jsize)value->" ++ n ++ "_count);"]
      ++ Code.block ("if (j_" ++ n ++ " != NULL && value->" ++ n ++ "_count > 0)")
        (Code.lines ["(*env)->Set" ++ accessor ++ "ArrayRegion(env, j_" ++ n
          ++ ", 0, (jsize)value->" ++ n ++ "_count, (const " ++ p.row.jni ++ " *)value->" ++ n
          ++ ");"]), "j_" ++ n)
  | .vector element => .error (vectorFault record element)
  | .named t =>
    if ctx.isEnum t then .ok ([], "(jint)value->" ++ n)
    else .ok (Code.lines ["jobject j_" ++ n ++ " = " ++ Naming.flatTypeName t
      ++ "_to_java(env, &value->" ++ n ++ ");"], "j_" ++ n)

/-- The helper of a record. -/
def ofRecord (ctx : Context) (record : String) : Except Fault ToJava := do
  let d ← ctx.typeDef record
  let fields ← d.fields.mapM (field ctx record)
  return {
    record
    descriptors := d.fields.map fun f => fieldDescriptor ctx f.type
    setup := fields.flatMap (·.1)
    args := fields.map (·.2) }

/-- The lines of the helper. -/
def lines (ctx : Context) (h : ToJava) : List Line :=
  let flat := Naming.flatTypeName h.record
  Code.block ("static jobject " ++ flat ++ "_to_java(JNIEnv *env, const "
      ++ Naming.cTypeName h.record ++ " *value)")
    (h.setup ++ Code.lines [
      "jclass cls = (*env)->FindClass(env, \"" ++ classPath ctx flat ++ "\");",
      "jmethodID ctor = (*env)->GetMethodID(env, cls, \"<init>\", \"(" ++ String.join h.descriptors
        ++ ")V\");",
      "return (*env)->NewObject(" ++ Text.commaSep (["env", "cls", "ctor"] ++ h.args) ++ ");"])
    ++ [Line.blank]

end ToJava

/-! ### Reading records -/

/-- How the value of a field is brought over from an object. -/
inductive FieldForm where
  | scalar (p : Primitive)
  | text
  | array (element : Primitive)
  | enum (type : String)
  | record (type : String)
deriving DecidableEq, Repr

/-- How a field is brought over. -/
def FieldForm.ofType (ctx : Context) (record : String) : FieldType → Except Fault FieldForm
  | .primitive p => .ok (scalar p)
  | .string => .ok text
  | .vector (.primitive p) => .ok (array p)
  | .vector element => .error (vectorFault record element)
  | .named t => .ok (if ctx.isEnum t then .enum t else .record t)

/-- The reading of one field of an object. -/
structure FieldRead where
  /-- The field of the record that is filled. -/
  field : String
  /-- The name and the descriptor under which the object is asked. -/
  property : String
  descriptor : String
  form : FieldForm
deriving DecidableEq, Repr

namespace FieldRead

/-- The reading of a field. -/
def ofField (ctx : Context) (record : String) (f : Field) : Except Fault FieldRead :=
  (FieldForm.ofType ctx record f.type).map fun form =>
    { field := f.name
      property := Naming.camelCase f.name
      descriptor := fieldDescriptor ctx f.type
      form }

/-- The expression that looks the field up. -/
def lookup (r : FieldRead) : String :=
  "(*env)->GetFieldID(env, cls, \"" ++ r.property ++ "\", \"" ++ r.descriptor ++ "\")"

/-- The statements that copy an array of scalars. -/
def arrayLines (p : Primitive) (r : FieldRead) : List Line :=
  let row := p.row
  Code.enclosed "\x7b" "\x7d"
    (Code.lines [
        row.jniArray ++ " arr = (" ++ row.jniArray ++ ")(*env)->GetObjectField(env, obj, "
          ++ r.lookup ++ ");",
        "jsize n = arr != NULL ? (*env)->GetArrayLength(env, arr) : 0;",
        row.c ++ " *data = n > 0 ? (" ++ row.c ++ " *)malloc(sizeof(" ++ row.c
          ++ ") * (size_t)n) : NULL;"]
      ++ Code.block "if (data != NULL)" (Code.lines [
        "(*env)->Get" ++ row.arrayAccessor ++ "ArrayRegion(env, arr, 0, n, (" ++ row.jni
          ++ " *)data);"])
      ++ Code.lines ["out->" ++ r.field ++ " = data;",
        "out->" ++ r.field ++ "_count = data != NULL ? (uint32_t)n : 0;"])

/-- The statements that read the field. -/
def lines (r : FieldRead) : List Line :=
  let n := r.field
  match r.form with
  | .scalar .bool =>
    Code.lines ["out->" ++ n ++ " = (*env)->GetBooleanField(env, obj, " ++ r.lookup
      ++ ") == JNI_TRUE;"]
  | .scalar p =>
    Code.lines ["out->" ++ n ++ " = (" ++ p.row.c ++ ")(*env)->Get" ++ p.row.arrayAccessor
      ++ "Field(env, obj, " ++ r.lookup ++ ");"]
  | .text =>
    Code.lines ["out->" ++ n ++ " = copy_string(env, (jstring)(*env)->GetObjectField(env, obj, "
      ++ r.lookup ++ "));"]
  | .array p => arrayLines p r
  | .enum t =>
    Code.lines ["out->" ++ n ++ " = (" ++ Naming.cTypeName t
      ++ ")(*env)->GetIntField(env, obj, " ++ r.lookup ++ ");"]
  | .record t =>
    Code.lines [Naming.flatTypeName t ++ "_from_java(env, (*env)->GetObjectField(env, obj, "
      ++ r.lookup ++ "), &out->" ++ n ++ ");"]

end FieldRead

/-- The helpers that fill a record from an object and release it again. -/
structure FromJava where
  record : String
  reads : List FieldRead
  /-- Statements that release what reading copied. -/
  releases : List String
deriving DecidableEq, Repr

namespace FromJava

/-- The statement that releases what reading a field copied. -/
def releaseField (ctx : Context) (f : Field) : Option String :=
  match f.type with
  | .string | .vector _ => some ("free((void *)value->" ++ f.name ++ ");")
  | .named t =>
    if ctx.isEnum t then none
    else some (Naming.flatTypeName t ++ "_release(&value->" ++ f.name ++ ");")
  | .primitive _ => none

/-- The helpers of a record. -/
def ofRecord (ctx : Context) (record : String) : Except Fault FromJava := do
  let d ← ctx.typeDef record
  let reads ← d.fields.mapM (FieldRead.ofField ctx record)
  return { record, reads, releases := d.fields.filterMap (releaseField ctx) }

/-- The lines of the helpers. -/
def lines (h : FromJava) : List Line :=
  let flat := Naming.flatTypeName h.record
  let c := Naming.cTypeName h.record
  Code.block ("static void " ++ flat ++ "_from_java(JNIEnv *env, jobject obj, " ++ c ++ " *out)")
      (Code.lines ["memset(out, 0, sizeof *out);"]
        ++ Code.block "if (obj == NULL)" (Code.lines ["return;"])
        ++ Code.lines ["jclass cls = (*env)->GetObjectClass(env, obj);"]
        ++ h.reads.flatMap FieldRead.lines)
    ++ [Line.blank]
    ++ Code.block ("static void " ++ flat ++ "_release(" ++ c ++ " *value)")
      (Code.lines (if h.releases.isEmpty then ["(void)value;"] else h.releases))
    ++ [Line.blank]

end FromJava

/-! ### Helpers -/

/-- The helper that throws an exception. -/
def throwHelper : List Line :=
  Code.block "static void throw_error(JNIEnv *env, const char *class_name, int32_t code)"
      (Code.lines ["jclass cls = (*env)->FindClass(env, class_name);"]
        ++ Code.block "if (cls == NULL)" (Code.lines ["return;"])
        ++ Code.lines [
          "jmethodID ctor = (*env)->GetMethodID(env, cls, \"<init>\", \"(I)V\");",
          "(*env)->Throw(env, (jthrowable)(*env)->NewObject(env, cls, ctor, (jint)code));"])
    ++ [Line.blank]

/-- The helper that copies a text. -/
def copyStringHelper : List Line :=
  Code.block "static char *copy_string(JNIEnv *env, jstring s)"
      (Code.block "if (s == NULL)" (Code.lines ["return NULL;"])
        ++ Code.lines ["const char *chars = (*env)->GetStringUTFChars(env, s, NULL);"]
        ++ Code.block "if (chars == NULL)" (Code.lines ["return NULL;"])
        ++ Code.lines ["size_t len = strlen(chars);", "char *copy = (char *)malloc(len + 1);"]
        ++ Code.block "if (copy != NULL)" (Code.lines ["memcpy(copy, chars, len + 1);"])
        ++ Code.lines ["(*env)->ReleaseStringUTFChars(env, s, chars);", "return copy;"])
    ++ [Line.blank]

/-- Whether some operation can fail and returns a record. -/
def throws (ctx : Context) : Bool :=
  ctx.api.authored.any fun m =>
    m.isFallible && ((m.returnType? >>= Context.qualified?).any ctx.types.isRecord)

/-- Whether a record has a text among its fields. -/
def hasText (ctx : Context) (record : String) : Bool :=
  (ctx.types.get? record).any fun d => d.fields.any fun f => f.type = .string

/-! ### The file -/

/-- What the C file holds. -/
structure BridgeFile where
  builders : List ToJava
  readers : List FromJava
  bridges : List (Interface × List Bridge)
deriving DecidableEq, Repr

namespace BridgeFile

/-- The C file of a description. -/
def ofContext (ctx : Context) : Except Fault BridgeFile := do
  let builders ← (returnedRecords ctx).mapM (ToJava.ofRecord ctx)
  let readers ← (passedRecords ctx).mapM (FromJava.ofRecord ctx)
  let bridges ← ctx.api.interfaces.mapM fun i => do
    return (i, ← i.operations.mapM (Bridge.ofOperation ctx))
  return { builders, readers, bridges }

/-- The lines of the file. -/
def lines (ctx : Context) (f : BridgeFile) : List Line :=
  Code.lines ["#include <jni.h>", "#include <stdint.h>", "#include <stdlib.h>",
      "#include <string.h>", "#include \"" ++ ctx.apiName ++ ".h\"", ""]
    ++ (if throws ctx then throwHelper else [])
    ++ (if (passedRecords ctx).any (hasText ctx) then copyStringHelper else [])
    ++ f.builders.flatMap (ToJava.lines ctx)
    ++ f.readers.flatMap FromJava.lines
    ++ f.bridges.flatMap fun (i, bs) =>
      Code.lines ["/* " ++ i.name ++ " */", ""] ++ bs.flatMap Bridge.lines

end BridgeFile

end Bindery.Kotlin
