import Bindery.Emit.Kotlin.Basic

/-!
# The Kotlin file

One file holds an exception for each error enumeration, a data class for each
record that crosses, a class for each handle, and one object with the native
functions. Methods on a handle live on its class; constructors and all other
methods live on the object. A result that can fail comes back as a pair of status
and payload, except that records are returned as they are and failures are thrown
on the C side.
-/

namespace Bindery.Kotlin

/-! ### Wrappers -/

/-- What a wrapper does with the result of the native call. -/
inductive Outcome where
  /-- Nothing comes back. -/
  | done
  /-- What comes back is the result. -/
  | direct
  /-- What comes back is the address of a handle. -/
  | handle (name : String)
  /-- A status comes back. -/
  | status (exception : String)
  /-- A status and a payload come back; the payload is decoded by an expression. -/
  | pair (exception payload : String)
deriving DecidableEq, Repr

/-- The expression that turns a payload back into a result. -/
def decodePayload (e : String) : JvmType → Except Fault String
  | .handle h => .ok (h ++ "(" ++ e ++ ")")
  | .enum _ => .ok (e ++ ".toInt()")
  | .scalar p =>
    .ok (match p with
      | .int64 | .uint64 => e
      | .int32 | .uint32 => e ++ ".toInt()"
      | .int16 | .uint16 => e ++ ".toShort()"
      | .int8 | .uint8 => e ++ ".toByte()"
      | .float32 => "Float.fromBits(" ++ e ++ ".toInt())"
      | .float64 => "Double.fromBits(" ++ e ++ ")"
      | .bool => e ++ " != 0L")
  | t => .error (.unsupported (t.kotlin ++ " cannot travel in a LongArray"))

/-- A public function around one native function. -/
structure Wrapper where
  name : String
  /-- Names and types. -/
  params : List (String × String)
  answer : Option String
  /-- The native function, with the object in front where it is called from outside. -/
  callee : String
  args : List String
  outcome : Outcome
deriving DecidableEq, Repr

namespace Wrapper

/-- A parameter and what is passed on for it. -/
def param (ctx : Context) (p : Parameter) : Except Fault ((String × String) × String) := do
  let t ← JvmType.ofText ctx p.type
  let name := identifier p.name
  return ((name, t.kotlin), match t with
    | .handle _ => name ++ ".handle"
    | _ => name)

/-- What is done with the result of an operation. -/
def outcomeOf (error : Option String) (ret : Option JvmType) : Except Fault Outcome :=
  match error, ret with
  | some _, some (.record _) => .ok .direct
  | some e, some t => (decodePayload "result[1]" t).map (.pair (exceptionName e))
  | some e, none => .ok (.status (exceptionName e))
  | none, some (.handle h) => .ok (.handle h)
  | none, some _ => .ok .direct
  | none, none => .ok .done

/-- The wrapper of an operation. On the class of a handle the receiver stands for
the first parameter. -/
def ofOperation (ctx : Context) (onHandle : Bool) (op : Operation) : Except Fault Wrapper := do
  let m := op.method
  let own := if onHandle then m.parameters.drop 1 else m.parameters
  let params ← own.mapM (param ctx)
  let ret ← JvmType.ofReturn ctx m
  let outcome ← outcomeOf m.error ret
  return {
    name := identifier m.name
    params := params.map (·.1)
    answer := ret.map (·.kotlin)
    callee := if onHandle then objectName ctx ++ "." ++ bridgeName op else bridgeName op
    args := (if onHandle then ["handle"] else []) ++ params.map (·.2)
    outcome }

/-- The native call. -/
def call (w : Wrapper) : String := w.callee ++ "(" ++ Text.commaSep w.args ++ ")"

/-- The declaration. -/
def head (w : Wrapper) : String :=
  "fun " ++ w.name ++ "(" ++ Text.commaSep (w.params.map fun p => p.1 ++ ": " ++ p.2) ++ ")"
    ++ match w.answer with
      | some t => ": " ++ t
      | none => ""

/-- The statements. -/
def body (w : Wrapper) : List String :=
  match w.outcome with
  | .done => [w.call]
  | .direct => ["return " ++ w.call]
  | .handle h => ["return " ++ h ++ "(" ++ w.call ++ ")"]
  | .status exception => ["val rc = " ++ w.call, "if (rc != 0) throw " ++ exception ++ "(rc)"]
  | .pair exception payload =>
    ["val result = " ++ w.call,
      "if (result[0] != 0L) throw " ++ exception ++ "(result[0].toInt())",
      "return " ++ payload]

/-- The lines of the function. -/
def lines (w : Wrapper) : List Line :=
  Code.block w.head (Code.lines w.body) ++ [Line.blank]

end Wrapper

/-! ### Native functions -/

/-- The declaration of a native function. -/
structure ExternalFun where
  name : String
  /-- Names and types. -/
  params : List (String × String)
  answer : String
deriving DecidableEq, Repr

namespace ExternalFun

/-- The result in the declaration. -/
def answerType (fallible : Bool) : Option JvmType → String
  | none => if fallible then "Int" else "Unit"
  | some (.record q) => (JvmType.record q).kotlin
  | some t => if fallible then "LongArray" else t.external

/-- The native function of an operation. -/
def ofOperation (ctx : Context) (op : Operation) : Except Fault ExternalFun := do
  let params ← op.method.parameters.mapM fun p => do
    return (identifier p.name, (← JvmType.ofText ctx p.type).external)
  let ret ← JvmType.ofReturn ctx op.method
  return { name := bridgeName op, params, answer := answerType op.method.isFallible ret }

/-- The declaration as a line. -/
def text (f : ExternalFun) : String :=
  "external fun " ++ f.name ++ "("
    ++ Text.commaSep (f.params.map fun p => p.1 ++ ": " ++ p.2) ++ "): " ++ f.answer

end ExternalFun

/-! ### Classes -/

/-- The data class of a record. -/
structure DataClass where
  name : String
  /-- Names and types. -/
  fields : List (String × String)
deriving DecidableEq, Repr

/-- The data class of a record. -/
def DataClass.ofRecord (ctx : Context) (record : String) : Except Fault DataClass := do
  let d ← ctx.typeDef record
  let fields ← d.fields.mapM fun f => do
    return (identifier f.name, ← fieldType ctx record f.type)
  return { name := Naming.flatTypeName record, fields }

/-- The lines of a data class. -/
def DataClass.lines (d : DataClass) : List Line :=
  Code.lines ["data class " ++ d.name ++ "("
    ++ Text.commaSep (d.fields.map fun f => "val " ++ f.1 ++ ": " ++ f.2) ++ ")", ""]

/-- The class of a handle. -/
structure HandleClass where
  handle : Handle
  wrappers : List Wrapper
  /-- The native function that ends the life of the handle. -/
  close : Option String
deriving DecidableEq, Repr

namespace HandleClass

/-- The operations that live on the class of a handle. -/
def operations (api : Api) (handle : String) : List Operation :=
  api.operations.filter fun op => op.kind = .method && op.method.leadingHandle? == some handle

/-- The native function that ends the life of a handle. -/
def closeOf (api : Api) (handle : String) : Option String :=
  api.handleOwner? handle >>= fun i =>
    (i.operations.find? fun op => op.kind = .destructor).map bridgeName

/-- The class of a handle. -/
def ofHandle (ctx : Context) (h : Handle) : Except Fault HandleClass := do
  let wrappers ← (operations ctx.api h.name).mapM (Wrapper.ofOperation ctx true)
  return { handle := h, wrappers, close := closeOf ctx.api h.name }

/-- The lines that end the life of a handle. -/
def closeLines (ctx : Context) : Option String → List Line
  | some callee =>
    Code.block "override fun close()" (Code.block "if (handle != 0L)"
      (Code.lines [objectName ctx ++ "." ++ callee ++ "(handle)", "handle = 0L"]))
  | none => Code.lines ["override fun close() \x7b \x7d"]

/-- The lines of the class. -/
def lines (ctx : Context) (c : HandleClass) : List Line :=
  (match c.handle.description with
    | some d => Code.lines ["/**", " * " ++ d, " */"]
    | none => [])
  ++ Code.block ("class " ++ c.handle.name ++ " internal constructor(handle: Long) : AutoCloseable")
    (Code.lines ["internal var handle: Long = handle"]
      ++ Code.indent (Code.lines ["private set"])
      ++ [Line.blank]
      ++ c.wrappers.flatMap Wrapper.lines
      ++ closeLines ctx c.close)
  ++ [Line.blank]

end HandleClass

/-! ### The object -/

/-- The object of the native functions. -/
structure ApiObject where
  constructors : List Wrapper
  functions : List Wrapper
  externals : List ExternalFun
deriving DecidableEq, Repr

namespace ApiObject

/-- Whether an operation lives on the class of a declared handle. -/
def isOnHandle (api : Api) (op : Operation) : Bool :=
  op.method.leadingHandle?.any fun h => api.handles.any (·.name = h)

/-- The object of an interface. -/
def ofApi (ctx : Context) : Except Fault ApiObject := do
  let ops := ctx.api.operations
  let constructors ←
    (ops.filter fun op => op.kind = .constructor).mapM (Wrapper.ofOperation ctx false)
  let functions ←
    (ops.filter fun op => op.kind = .method && !isOnHandle ctx.api op).mapM
      (Wrapper.ofOperation ctx false)
  let externals ← ops.mapM (ExternalFun.ofOperation ctx)
  return { constructors, functions, externals }

/-- The lines of the object. -/
def lines (ctx : Context) (o : ApiObject) : List Line :=
  Code.block ("object " ++ objectName ctx)
    (Code.block "init" (Code.lines ["System.loadLibrary(\"" ++ ctx.apiName ++ "\")"])
      ++ [Line.blank]
      ++ o.constructors.flatMap Wrapper.lines
      ++ o.functions.flatMap Wrapper.lines
      ++ Code.lines (o.externals.map ExternalFun.text))

end ApiObject

/-! ### The file -/

/-- What the Kotlin file holds. -/
structure Source where
  /-- Error enumerations. -/
  errors : List String
  records : List DataClass
  classes : List HandleClass
  object : ApiObject
deriving DecidableEq, Repr

namespace Source

/-- The records that cross in either direction. -/
def recordNames (ctx : Context) : List String :=
  Text.distinct (returnedRecords ctx ++ passedRecords ctx)

/-- The Kotlin file of a description. -/
def ofContext (ctx : Context) : Except Fault Source := do
  let records ← (recordNames ctx).mapM (DataClass.ofRecord ctx)
  let classes ← ctx.api.handles.mapM (HandleClass.ofHandle ctx)
  let object ← ApiObject.ofApi ctx
  return { errors := ctx.api.errorTypes, records, classes, object }

/-- The lines of an exception class. -/
def exceptionLines (errorType : String) : List Line :=
  Code.lines ["class " ++ exceptionName errorType
    ++ "(val errorCode: Int) : Exception(\"Error code: $errorCode\")", ""]

/-- The lines of the file. -/
def lines (ctx : Context) (s : Source) : List Line :=
  Code.lines ["package " ++ package ctx, ""]
    ++ s.errors.flatMap exceptionLines
    ++ s.records.flatMap DataClass.lines
    ++ s.classes.flatMap (HandleClass.lines ctx)
    ++ s.object.lines ctx

end Source

end Bindery.Kotlin
