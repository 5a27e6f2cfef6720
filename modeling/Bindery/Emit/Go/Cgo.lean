import Bindery.Abi.Typedef
import Bindery.Emit.Go.Basic

/-!
# The cgo shim

One exported Go function for each operation of the C interface. Constructors and
destructors work on the table of handles; a method with a handle in front looks the
handle up and calls through its Go interface; any other method is left to the user.
The C types are declared again in the preamble.

The parameters of an exported function are values, to be compared with the C
signature.
-/

namespace Bindery.Go

/-! ### Parameters -/

/-- The type of a parameter of an exported function. -/
inductive CgoType where
  /-- A text. -/
  | chars
  /-- The elements of a buffer. -/
  | elements (p : Primitive)
  /-- The length of a buffer. -/
  | length
  | handle (name : String)
  | scalar (p : Primitive)
  /-- A schema type by value. -/
  | schema (name : String)
  /-- A schema type by address. -/
  | pointer (name : String)
  /-- Where the result goes. -/
  | result (v : Abi.ValueType)
deriving DecidableEq, Repr

/-- A value type as cgo sees it. -/
def cgoValue (v : Abi.ValueType) : String := "C." ++ v.c

/-- The cgo spelling. -/
def CgoType.text : CgoType → String
  | chars => "*C.char"
  | elements p => "*" ++ p.row.cgo
  | length => "C.uint32_t"
  | handle h => "C." ++ Naming.handleTypedef h
  | scalar p => p.row.cgo
  | schema q => "C." ++ Naming.cTypeName q
  | pointer q => "*C." ++ Naming.cTypeName q
  | result v => "*" ++ cgoValue v

/-- A parameter of an exported function. -/
structure CgoParam where
  name : String
  type : CgoType
deriving DecidableEq, Repr

/-- What a parameter of an operation becomes. -/
def CgoParam.lower (p : Parameter) : Except Fault (List CgoParam) := do
  let name := identifier p.name
  match ← Abi.classify p.type with
  | .string => return [⟨name, .chars⟩]
  | .buffer element => return [⟨name, .elements element⟩, ⟨Abi.lengthName p.name, .length⟩]
  | .handle h => return [⟨name, .handle h⟩]
  | .primitive q => return [⟨name, .scalar q⟩]
  | .qualified q =>
    match p.effectiveTransfer with
    | .value => return [⟨name, .schema q⟩]
    | .ref | .refMut => return [⟨name, .pointer q⟩]

/-! ### Records -/

/-- The name under which cgo shows a C field. -/
def cgoField (name : String) : String :=
  if keywords.contains name then "_" ++ name else name

/-- The Go expression that reads C storage. -/
def fromC (expression : String) : Value → String
  | .scalar p => p.row.go ++ "(" ++ expression ++ ")"
  | .text => "C.GoString(" ++ expression ++ ")"
  | .enum name base => (Value.enum name base).go ++ "(" ++ expression ++ ")"
  | .record name => "_fromC" ++ (Value.record name).go ++ "(&" ++ expression ++ ")"

/-- The statement that stores a Go expression in C storage. -/
def toC (dest source : String) : Value → String
  | .text => dest ++ " = _retainString(key, " ++ source ++ ")"
  | .record name => "_toC" ++ (Value.record name).go ++ "(" ++ source ++ ", &" ++ dest ++ ", key)"
  | v => dest ++ " = " ++ v.cgo ++ "(" ++ source ++ ")"

/-- The statements that read a field. -/
def readField (types : Schema) (f : Field) : List Line :=
  let name := Naming.pascalCase f.name
  let c := "c." ++ cgoField f.name
  match Shape.ofField types f.type with
  | .one v => Code.lines ["g." ++ name ++ " = " ++ fromC c v]
  | .many v =>
    let count := "c." ++ Abi.countName f.name
    Code.block ("if " ++ c ++ " != nil && " ++ count ++ " > 0")
      (Code.lines ["src := unsafe.Slice(" ++ c ++ ", int(" ++ count ++ "))",
          "g." ++ name ++ " = make([]" ++ v.go ++ ", len(src))"]
        ++ Code.block "for i := range src"
          (Code.lines ["g." ++ name ++ "[i] = " ++ fromC "src[i]" v]))
  | .hidden => []

/-- The statements that write a field. -/
def writeField (types : Schema) (f : Field) : List Line :=
  let name := Naming.pascalCase f.name
  let c := "c." ++ cgoField f.name
  match Shape.ofField types f.type with
  | .one v => Code.lines [toC c ("g." ++ name) v]
  | .many v =>
    Code.block ("if n := len(g." ++ name ++ "); n > 0")
      (Code.lines ["dst := unsafe.Slice((*" ++ v.cgo ++ ")(_retainArray(key, n, unsafe.Sizeof(*"
          ++ c ++ "))), n)"]
        ++ Code.block ("for i, v := range g." ++ name) (Code.lines [toC "dst[i]" "v" v])
        ++ Code.lines [c ++ " = &dst[0]", "c." ++ Abi.countName f.name ++ " = C.uint32_t(n)"])
  | .hidden => []

/-- The functions that read and write a record. -/
def converterLines (types : Schema) (name : String) (d : TypeDef) : List Line :=
  let flat := Naming.flatTypeName name
  let c := "C." ++ Naming.cTypeName name
  Code.block ("func _fromC" ++ flat ++ "(c *" ++ c ++ ") " ++ flat)
      (Code.lines ["var g " ++ flat] ++ d.fields.flatMap (readField types)
        ++ Code.lines ["return g"])
    ++ [Line.blank]
    ++ Code.block ("func _toC" ++ flat ++ "(g " ++ flat ++ ", c *" ++ c ++ ", key uintptr)")
      (d.fields.flatMap (writeField types))
    ++ [Line.blank]

/-! ### Bodies -/

/-- The zero of a C result type. -/
def cZero (ctx : Context) (ty : String) : Except Fault String := do
  match ← Abi.classify ty with
  | .handle _ => return "nil"
  | .primitive .bool => return "false"
  | .qualified q => return if ctx.isEnum q then "0" else "C." ++ Naming.cTypeName q ++ "\x7b\x7d"
  | _ => return "0"

/-- The body of a constructor. -/
def cgoConstructor (m : Method) : Except Fault (List Line) :=
  match m.returnedHandle? with
  | none => .error (.internal ("constructor " ++ m.name ++ " returns no handle"))
  | some handle => do
    let made := "C." ++ Naming.handleTypedef handle ++ "(unsafe.Pointer(key))"
    let name ← constructedStruct m
    return Code.lines (("key := _allocHandle(&" ++ name ++ "\x7b\x7d)") ::
      if m.shape = .fallibleValue then ["*" ++ Abi.outName ++ " = " ++ made, "return 0"]
      else ["return " ++ made])

/-- The body of a destructor. -/
def cgoDestructor (m : Method) : List Line :=
  Code.lines ["_freeHandle(uintptr(unsafe.Pointer(" ++ firstName m ++ ")))"]

/-- The statement that leaves a function early. -/
def cgoBail (ctx : Context) (m : Method) : Except Fault String :=
  match m.error, m.returns with
  | some _, _ => do return "return C.int32_t(" ++ toString (← failureCode ctx m) ++ ")"
  | none, some r => do return "return " ++ (← cZero ctx r.type)
  | none, none => .ok "return"

/-- The body of a function that no handle dispatches. -/
def cgoStub (ctx : Context) (m : Method) : Except Fault (List Line) :=
  match m.error, m.returns with
  | some _, _ => .ok (Code.lines [todo m, "return 0"])
  | none, some r => do return Code.lines [todo m, "return " ++ (← cZero ctx r.type)]
  | none, none => .ok (Code.lines [todo m])

/-- How a parameter is passed to a method. -/
def cgoPass (ctx : Context) (p : Parameter) : Except Fault Passed := do
  let name := identifier p.name
  match ← Abi.classify p.type with
  | .string => return { arg := "C.GoString(" ++ name ++ ")" }
  | .buffer element =>
    return { arg := "unsafe.Slice((*" ++ element.row.go ++ ")(unsafe.Pointer(" ++ name ++ ")), int("
      ++ Abi.lengthName p.name ++ "))" }
  | .handle _ => return { arg := "uintptr(unsafe.Pointer(" ++ name ++ "))" }
  | .primitive q => return { arg := q.row.go ++ "(" ++ name ++ ")" }
  | .qualified q =>
    let v ← Value.ofName ctx.types q
    match p.effectiveTransfer with
    | .value => return { arg := fromC name v }
    | .ref =>
      return { arg := if v.isRecord then "_fromC" ++ v.go ++ "(" ++ name ++ ")"
        else fromC ("*" ++ name) v }
    | .refMut =>
      let own := argName p ++ "Go"
      if v.isRecord then
        return {
          locals := [own ++ " := _fromC" ++ v.go ++ "(" ++ name ++ ")"]
          arg := "&" ++ own
          writeBacks := ["_toC" ++ v.go ++ "(" ++ own ++ ", " ++ name ++ ", key)"]
          retains := true }
      else
        return {
          locals := [own ++ " := " ++ v.go ++ "(*" ++ name ++ ")"]
          arg := "&" ++ own
          writeBacks := ["*" ++ name ++ " = " ++ v.cgo ++ "(" ++ own ++ ")"] }

/-- The statement that stores a result through the trailing pointer. -/
def cgoStore (ctx : Context) (ty : String) : Except Fault String := do
  let c := cgoValue (← Abi.ValueType.ofText ty)
  match ← Abi.classify ty with
  | .handle _ => return "*" ++ Abi.outName ++ " = " ++ c ++ "(unsafe.Pointer(result))"
  | .qualified q =>
    return if ctx.isEnum q then "*" ++ Abi.outName ++ " = " ++ c ++ "(result)"
      else "_toC" ++ Naming.flatTypeName q ++ "(result, " ++ Abi.outName ++ ", key)"
  | _ => return "*" ++ Abi.outName ++ " = " ++ c ++ "(result)"

/-- The statements that return a result. -/
def cgoReturn (ctx : Context) (ty : String) : Except Fault (List String) := do
  let c := cgoValue (← Abi.ValueType.ofText ty)
  match ← Abi.classify ty with
  | .handle _ => return ["return " ++ c ++ "(unsafe.Pointer(result))"]
  | .qualified q =>
    return if ctx.isEnum q then ["return " ++ c ++ "(result)"]
      else ["var out " ++ c, "_toC" ++ Naming.flatTypeName q ++ "(result, &out, key)", "return out"]
  | _ => return ["return " ++ c ++ "(result)"]

/-- The body of a function that dispatches to a method. -/
def cgoDispatch (ctx : Context) (op : Operation) : Except Fault (List Line) := do
  let m := op.method
  let bail ← cgoBail ctx m
  let passed ← (m.parameters.drop 1).mapM (cgoPass ctx)
  let returnsRecord := m.returnType?.any (Abi.isRecordType ctx.types)
  let retains := returnsRecord || passed.any (·.retains)
  let call := "impl." ++ Naming.pascalCase m.name ++ "("
    ++ Text.commaSep (passed.map (·.arg)) ++ ")"
  let back := Code.lines (passed.flatMap (·.writeBacks))
  let fallback ← failureCode ctx m
  let finish ← match m.error, m.returns with
    | some _, some r => do
      let store ← cgoStore ctx r.type
      pure (Code.lines ["result, err := " ++ call] ++ back ++ errorCheck fallback
        ++ Code.lines [store, "return 0"])
    | some _, none =>
      pure (Code.lines ["err := " ++ call] ++ back ++ errorCheck fallback ++ Code.lines ["return 0"])
    | none, some r => do
      let answer ← cgoReturn ctx r.type
      pure (Code.lines ["result := " ++ call] ++ back ++ Code.lines answer)
    | none, none => pure (Code.lines [call] ++ back)
  return Code.lines ["key := uintptr(unsafe.Pointer(" ++ firstName m ++ "))",
      "impl, ok := _lookup(key).(" ++ interfaceName op.interface ++ ")"]
    ++ Code.block "if !ok" (Code.lines [bail])
    ++ (if retains then Code.lines ["_release(key)"] else [])
    ++ Code.lines (passed.flatMap (·.locals))
    ++ finish

/-! ### Exported functions -/

/-- An exported function. -/
structure CgoExport where
  symbol : String
  params : List CgoParam
  answer : Abi.Answer
  body : List Line
deriving DecidableEq, Repr

namespace CgoExport

/-- The parameters and the answer of an operation. -/
def interface (m : Method) : Except Fault (List CgoParam × Abi.Answer) := do
  let params := (← m.parameters.mapM CgoParam.lower).flatten
  match m.error, m.returns with
  | some _, some r =>
    let v ← Abi.ValueType.ofText r.type
    return (params ++ [⟨Abi.outName, .result v⟩], .status)
  | some _, none => return (params, .status)
  | none, some r => return (params, .value (← Abi.ValueType.ofText r.type))
  | none, none => return (params, .void)

/-- The exported function of an operation. -/
def ofOperation (ctx : Context) (op : Operation) : Except Fault CgoExport := do
  let m := op.method
  let (params, answer) ← interface m
  let body ← match op.kind with
    | .constructor => cgoConstructor m
    | .destructor => pure (cgoDestructor m)
    | .method => if m.leadingHandle?.isSome then cgoDispatch ctx op else cgoStub ctx m
  return { symbol := op.symbol ctx.apiName, params, answer, body }

/-- The answer in the declaration. -/
def answerText : Abi.Answer → String
  | .void => ""
  | .status => " C.int32_t"
  | .value v => " " ++ cgoValue v

/-- The lines of the function. -/
def lines (e : CgoExport) : List Line :=
  Code.lines ["//export " ++ e.symbol]
    ++ Code.block ("func " ++ e.symbol ++ "("
        ++ Text.commaSep (e.params.map fun p => p.name ++ " " ++ p.type.text) ++ ")"
        ++ answerText e.answer) e.body
    ++ [Line.blank]

end CgoExport

/-! ### The file -/

/-- The helpers of the shim. -/
def cgoHelpers : List Line :=
  [Code.comment "Handles are keys into _handles; C only ever sees the key."]
    ++ handleHelpers
    ++ [Code.comment "Memory handed to C in results stays valid until the next call on the same handle",
      Code.comment "or until the handle is destroyed."]
    ++ Code.enclosed "var (" ")"
      (Code.lines ["_retainMu sync.Mutex", "_retained = map[uintptr][]unsafe.Pointer\x7b\x7d"])
    ++ [Line.blank]
    ++ Code.block "func _retain(key uintptr, p unsafe.Pointer) unsafe.Pointer"
      (Code.lines ["_retainMu.Lock()", "defer _retainMu.Unlock()",
        "_retained[key] = append(_retained[key], p)", "return p"])
    ++ [Line.blank]
    ++ Code.block "func _release(key uintptr)"
      (Code.lines ["_retainMu.Lock()", "ptrs := _retained[key]", "delete(_retained, key)",
          "_retainMu.Unlock()"]
        ++ Code.block "for _, p := range ptrs" (Code.lines ["C.free(p)"]))
    ++ [Line.blank]
    ++ Code.block "func _retainString(key uintptr, s string) *C.char"
      (Code.lines ["return (*C.char)(_retain(key, unsafe.Pointer(C.CString(s))))"])
    ++ [Line.blank]
    ++ Code.block "func _retainArray(key uintptr, n int, elemSize uintptr) unsafe.Pointer"
      (Code.lines ["return _retain(key, C.calloc(C.size_t(n), C.size_t(elemSize)))"])
    ++ [Line.blank]
    ++ [Code.comment "_errorCode maps an error returned by an implementation to its C discriminant."]
    ++ Code.block "func _errorCode(err error, fallback C.int32_t) C.int32_t"
      (Code.lines ["var coded interface\x7b Code() int32 \x7d"]
        ++ Code.block "if errors.As(err, &coded)" (Code.lines ["return C.int32_t(coded.Code())"])
        ++ Code.lines ["return fallback"])
    ++ [Line.blank]

/-- The lines without empty ones at the end. -/
def dropTrailingBlanks (ls : List Line) : List Line :=
  (ls.reverse.dropWhile fun l => l.text = "").reverse

/-- The C declarations in front of the shim. -/
def preamble (ctx : Context) : List Line :=
  Code.spellOut Code.fourBlanks (dropTrailingBlanks
    (Code.lines ["#include <stdint.h>", "#include <stdbool.h>", "#include <stdlib.h>", ""]
      ++ Abi.handleTypedefs ctx.api.handles ++ Abi.schemaTypedefs ctx.types))

/-- The exported functions, interface by interface. -/
def cgoExports (ctx : Context) : Except Fault (List (Interface × List CgoExport)) :=
  ctx.api.interfaces.mapM fun i => do
    return (i, ← i.operations.mapM (CgoExport.ofOperation ctx))

/-- The lines of the shim. -/
def cgoFile (ctx : Context) (exports : List (Interface × List CgoExport)) : List Line :=
  Code.lines ["//go:build !wasip1", "", "package main", "", "/*"]
    ++ preamble ctx
    ++ Code.lines ["*/", "import \"C\"", ""]
    ++ importLines
    ++ cgoHelpers
    ++ ctx.types.records.flatMap (fun (name, d) => converterLines ctx.types name d)
    ++ exports.flatMap fun (i, es) =>
      Code.lines ["/* " ++ i.name ++ " */", ""] ++ es.flatMap CgoExport.lines

end Bindery.Go
