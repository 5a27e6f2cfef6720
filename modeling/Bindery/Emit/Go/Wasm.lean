import Bindery.Abi.Service
import Bindery.Emit.Go.Basic

/-!
# The WebAssembly exports of a Go library

The twin of the cgo shim for the web. There is no C here: records are read and
written in linear memory at the offsets of their layout. Small integers and truth
values are widened to 32 bits, and a record that is returned without a status goes
through a leading pointer.

The parameters of an exported function and the accesses to the fields of a record
are values, to be compared with what JavaScript passes and accesses.
-/

namespace Bindery.Go

/-! ### Accesses -/

/-- A primitive as a parameter or result. -/
def wasmPrimitive : Primitive → String
  | .int8 | .int16 | .int32 => "int32"
  | .uint8 | .uint16 | .uint32 | .bool => "uint32"
  | p => p.row.go

/-- The fault of a type without a layout. -/
def layoutFault (e : Abi.LayoutError) : Fault := .internal e.message

/-- An address at an offset from another. -/
def addressAt (base : String) (offset : Nat) : String :=
  if offset = 0 then base else base ++ " + " ++ toString offset

/-- The 32-bit word at an address. -/
def wordAt (addr : String) : String := "*(*uint32)(unsafe.Pointer(" ++ addr ++ "))"

/-- The expression that reads a value at an address. -/
def readAt (addr : String) : Value → String
  | .scalar .bool => "*(*byte)(unsafe.Pointer(" ++ addr ++ ")) != 0"
  | .scalar p => "*(*" ++ p.row.go ++ ")(unsafe.Pointer(" ++ addr ++ "))"
  | .text => "_cstring(uintptr(" ++ wordAt addr ++ "))"
  | .enum name base =>
    Naming.flatTypeName name ++ "(*(*" ++ base.row.go ++ ")(unsafe.Pointer(" ++ addr ++ ")))"
  | .record name => "_read" ++ Naming.flatTypeName name ++ "(" ++ addr ++ ")"

/-- The statement that writes a Go expression to an address. -/
def writeAt (addr source : String) : Value → String
  | .scalar .bool => "*(*byte)(unsafe.Pointer(" ++ addr ++ ")) = byte(_b2u(" ++ source ++ "))"
  | .scalar p => "*(*" ++ p.row.go ++ ")(unsafe.Pointer(" ++ addr ++ ")) = " ++ source
  | .text => wordAt addr ++ " = _wasmString(key, " ++ source ++ ")"
  | .enum _ base =>
    "*(*" ++ base.row.go ++ ")(unsafe.Pointer(" ++ addr ++ ")) = " ++ base.row.go ++ "(" ++ source
      ++ ")"
  | .record name =>
    "_write" ++ Naming.flatTypeName name ++ "(" ++ source ++ ", " ++ addr ++ ", key)"

/-- The bytes from one element to the next. -/
def stride (types : Schema) : Value → Except Fault Nat
  | .scalar p => .ok p.row.size
  | .text => .ok Abi.pointerSize
  | .enum _ base => .ok base.row.size
  | .record name => ((Abi.layout types name).map (·.size)).mapError layoutFault

/-- How one field is read and written. -/
inductive WasmAccess where
  | plain (field : String) (offset : Nat) (value : Value)
  | vector (field : String) (offset countOffset stride : Nat) (element : Value)
deriving DecidableEq, Repr

namespace WasmAccess

/-- The access to a field in a layout, if it has one. -/
def ofField (types : Schema) (l : Abi.Layout) (f : Field) : Except Fault (Option WasmAccess) :=
  match l.slot? f.name with
  | none => .ok none
  | some slot =>
    match Shape.ofField types f.type with
    | .one v => .ok (some (.plain f.name slot.offset v))
    | .many v =>
      match l.slot? (Abi.countName f.name) with
      | none => .error (.internal (l.name ++ "." ++ f.name ++ " has no count slot"))
      | some count => do
        let s ← stride types v
        return some (.vector f.name slot.offset count.offset s v)
    | .hidden => .ok none

/-- Whether the access is to a vector. -/
def isVector : WasmAccess → Bool
  | vector .. => true
  | plain .. => false

/-- The address of an element. -/
def elementAt (stride : Nat) : String := "data + uintptr(i)*" ++ toString stride

/-- The statements that read the field. -/
def readLines : WasmAccess → List Line
  | plain f offset v =>
    Code.lines ["g." ++ Naming.pascalCase f ++ " = " ++ readAt (addressAt "ptr" offset) v]
  | vector f offset count stride v =>
    let name := "g." ++ Naming.pascalCase f
    Code.block ("if data, n := uintptr(" ++ wordAt (addressAt "ptr" offset) ++ "), int("
        ++ wordAt (addressAt "ptr" count) ++ "); data != 0 && n > 0")
      (Code.lines [name ++ " = make([]" ++ v.go ++ ", n)"]
        ++ Code.block ("for i := range " ++ name)
          (Code.lines [name ++ "[i] = " ++ readAt (elementAt stride) v]))

/-- The statements that write the field. -/
def writeLines : WasmAccess → List Line
  | plain f offset v =>
    Code.lines [writeAt (addressAt "ptr" offset) ("g." ++ Naming.pascalCase f) v]
  | vector f offset count stride v =>
    let name := "g." ++ Naming.pascalCase f
    let dataSlot := wordAt (addressAt "ptr" offset)
    let countSlot := wordAt (addressAt "ptr" count)
    Code.blockWith ("if n := len(" ++ name ++ "); n > 0") "\x7d else \x7b"
        (Code.lines ["data := _retain(key, uint32(n*" ++ toString stride ++ "))"]
          ++ Code.block ("for i, v := range " ++ name)
            (Code.lines [writeAt (elementAt stride) "v" v])
          ++ Code.lines [dataSlot ++ " = uint32(data)", countSlot ++ " = uint32(n)"])
      ++ Code.indent (Code.lines [dataSlot ++ " = 0", countSlot ++ " = 0"])
      ++ Code.lines ["\x7d"]

end WasmAccess

/-- How a record is read and written. -/
structure WasmCodec where
  record : String
  accesses : List WasmAccess
deriving DecidableEq, Repr

namespace WasmCodec

/-- The codec of a record. -/
def ofRecord (types : Schema) (name : String) (d : TypeDef) : Except Fault WasmCodec := do
  let l ← (Abi.layout types name).mapError layoutFault
  let accesses ← d.fields.mapM (WasmAccess.ofField types l)
  return { record := name, accesses := accesses.filterMap id }

/-- The codecs of all records. -/
def all (types : Schema) : Except Fault (List WasmCodec) :=
  types.records.mapM fun (name, d) => ofRecord types name d

/-- The accesses in the order of the code: vectors come last. -/
def ordered (c : WasmCodec) : List WasmAccess :=
  c.accesses.filter (!·.isVector) ++ c.accesses.filter (·.isVector)

/-- The lines of a codec. -/
def lines (c : WasmCodec) : List Line :=
  let flat := Naming.flatTypeName c.record
  Code.block ("func _read" ++ flat ++ "(ptr uintptr) " ++ flat)
      (Code.lines ["var g " ++ flat] ++ c.ordered.flatMap WasmAccess.readLines
        ++ Code.lines ["return g"])
    ++ [Line.blank]
    ++ Code.block ("func _write" ++ flat ++ "(g " ++ flat ++ ", ptr uintptr, key uintptr)")
      (c.ordered.flatMap WasmAccess.writeLines)
    ++ [Line.blank]

end WasmCodec

/-! ### Parameters -/

/-- A parameter of an exported function. -/
inductive WasmParam where
  /-- The address of a text, a buffer or a schema value. -/
  | pointer (name : String)
  | length (name : String)
  | handle (name : String)
  | number (p : Primitive) (name : String)
  /-- Where the result goes. -/
  | result (name : String)
deriving DecidableEq, Repr

/-- The declaration. -/
def WasmParam.text : WasmParam → String
  | pointer n => n ++ " uintptr"
  | length n => n ++ " uint32"
  | handle n => n ++ " uintptr"
  | number p n => n ++ " " ++ wasmPrimitive p
  | result n => n ++ " uintptr"

/-- The leading pointer for a record that comes without a status. -/
def leadingResult : String := "sret"

/-- What a parameter of an operation becomes. -/
def WasmParam.lower (ctx : Context) (p : Parameter) : Except Fault (List WasmParam) := do
  let name := identifier p.name
  match ← Abi.classify p.type with
  | .buffer _ => return [.pointer name, .length (Abi.lengthName p.name)]
  | .string => return [.pointer name]
  | .handle _ => return [.handle name]
  | .primitive q => return [.number q name]
  | .qualified q =>
    match Value.ofName? ctx.types q, p.effectiveTransfer with
    | some (.enum _ base), .value => return [.number base name]
    | some _, _ => return [.pointer name]
    | none, _ => throw (.missingType q)

/-- What an exported function returns. -/
inductive WasmAnswer where
  | void
  | status
  | handle
  | number (p : Primitive)
  /-- A record goes through the leading pointer. -/
  | stored
deriving DecidableEq, Repr

namespace WasmAnswer

/-- The result in the declaration. -/
def text : WasmAnswer → String
  | void | stored => ""
  | status => " int32"
  | handle => " uintptr"
  | number p => " " ++ wasmPrimitive p

/-- The answer of a result without a status. -/
def ofText (ctx : Context) (ty : String) : Except Fault WasmAnswer := do
  match ← Abi.classify ty with
  | .handle _ => return handle
  | .primitive p => return number p
  | .qualified q =>
    match Value.ofName? ctx.types q with
    | some (.enum _ base) => return number base
    | some _ => return stored
    | none => throw (.missingType q)
  | .string | .buffer _ => throw (.unsupported (ty ++ " cannot be returned by value"))

/-- The answer of a method. -/
def ofMethod (ctx : Context) (m : Method) : Except Fault WasmAnswer :=
  match m.error, m.returns with
  | some _, _ => .ok status
  | none, some r => ofText ctx r.type
  | none, none => .ok void

end WasmAnswer

/-! ### Bodies -/

/-- The body of a constructor. -/
def wasmConstructor (m : Method) : Except Fault (List Line) := do
  let name ← constructedStruct m
  return Code.lines (("key := _allocHandle(&" ++ name ++ "\x7b\x7d)") ::
    if m.shape = .fallibleValue then [wordAt Abi.outName ++ " = uint32(key)", "return 0"]
    else ["return key"])

/-- How a parameter is passed to a method. -/
def wasmPass (ctx : Context) (p : Parameter) : Except Fault Passed := do
  let name := identifier p.name
  match ← Abi.classify p.type with
  | .string => return { arg := "_cstring(" ++ name ++ ")" }
  | .buffer element =>
    return { arg := "unsafe.Slice((*" ++ element.row.go ++ ")(unsafe.Pointer(" ++ name ++ ")), int("
      ++ Abi.lengthName p.name ++ "))" }
  | .handle _ => return { arg := name }
  | .primitive .bool => return { arg := name ++ " != 0" }
  | .primitive q => return { arg := q.row.go ++ "(" ++ name ++ ")" }
  | .qualified q =>
    let v ← Value.ofName ctx.types q
    match p.effectiveTransfer, v with
    | .value, .enum n _ => return { arg := Naming.flatTypeName n ++ "(" ++ name ++ ")" }
    | .refMut, v =>
      let own := argName p ++ "Go"
      return {
        locals := [own ++ " := " ++ readAt name v]
        arg := "&" ++ own
        writeBacks := [writeAt name own v]
        retains := v.isRecord }
    | _, v => return { arg := readAt name v }

/-- The statement that stores a result through a pointer. -/
def wasmStore (ctx : Context) (ty dest : String) : Except Fault String := do
  match ← Abi.classify ty with
  | .handle _ => return wordAt dest ++ " = uint32(result)"
  | .primitive p => return writeAt dest "result" (.scalar p)
  | .string => return writeAt dest "result" .text
  | .qualified q => return writeAt dest "result" (← Value.ofName ctx.types q)
  | .buffer _ => throw (.unsupported (ty ++ " cannot be returned by value"))

/-- The statement that returns a result. -/
def wasmReturn (ctx : Context) (ty : String) : Except Fault String := do
  match ← Abi.classify ty with
  | .handle _ => return "return result"
  | .primitive .bool => return "return _b2u(result)"
  | .primitive p => return "return " ++ wasmPrimitive p ++ "(result)"
  | .qualified q =>
    match Value.ofName? ctx.types q with
    | some (.enum _ base) => return "return " ++ wasmPrimitive base ++ "(result)"
    | _ => throw (.internal (q ++ " is returned through " ++ leadingResult))
  | .string | .buffer _ => throw (.unsupported (ty ++ " cannot be returned by value"))

/-- The statement that leaves a function early. -/
def wasmBail (ctx : Context) (m : Method) (answer : WasmAnswer) : Except Fault String :=
  match answer with
  | .status => do return "return " ++ toString (← failureCode ctx m)
  | .handle | .number _ => .ok "return 0"
  | .void | .stored => .ok "return"

/-- The body of a function that dispatches to a method. -/
def wasmDispatch (ctx : Context) (op : Operation) (answer : WasmAnswer) :
    Except Fault (List Line) := do
  let m := op.method
  let bail ← wasmBail ctx m answer
  let passed ← (m.parameters.drop 1).mapM (wasmPass ctx)
  let returnsRecord := m.returnType?.any (Abi.isRecordType ctx.types)
  let retains := returnsRecord || passed.any (·.retains)
  let call := "impl." ++ Naming.pascalCase m.name ++ "("
    ++ Text.commaSep (passed.map (·.arg)) ++ ")"
  let back := Code.lines (passed.flatMap (·.writeBacks))
  let fallback ← failureCode ctx m
  let finish ← match m.error, m.returns with
    | some _, some r => do
      let store ← wasmStore ctx r.type Abi.outName
      pure (Code.lines ["result, err := " ++ call] ++ back ++ errorCheck fallback
        ++ Code.lines [store, "return 0"])
    | some _, none =>
      pure (Code.lines ["err := " ++ call] ++ back ++ errorCheck fallback ++ Code.lines ["return 0"])
    | none, some r => do
      let last ← if answer = .stored then wasmStore ctx r.type leadingResult
        else wasmReturn ctx r.type
      pure (Code.lines ["result := " ++ call] ++ back ++ Code.lines [last])
    | none, none => pure (Code.lines [call] ++ back)
  return Code.lines ["key := " ++ firstName m,
      "impl, ok := _lookup(key).(" ++ interfaceName op.interface ++ ")"]
    ++ Code.block "if !ok" (Code.lines [bail])
    ++ (if retains then Code.lines ["_release(key)"] else [])
    ++ Code.lines (passed.flatMap (·.locals))
    ++ finish

/-- The body of a function that no handle dispatches. -/
def wasmStub (m : Method) (answer : WasmAnswer) : List Line :=
  Code.lines (todo m :: if answer.text = "" then [] else ["return 0"])

/-! ### Exported functions -/

/-- An exported function. -/
structure WasmExport where
  symbol : String
  params : List WasmParam
  answer : WasmAnswer
  body : List Line
deriving DecidableEq, Repr

namespace WasmExport

/-- The exported function of an operation. -/
def ofOperation (ctx : Context) (op : Operation) : Except Fault WasmExport := do
  let m := op.method
  let answer ← WasmAnswer.ofMethod ctx m
  let params := (← m.parameters.mapM (WasmParam.lower ctx)).flatten
  let body ← match op.kind with
    | .constructor => wasmConstructor m
    | .destructor => pure (Code.lines ["_freeHandle(" ++ firstName m ++ ")"])
    | .method =>
      if m.leadingHandle?.isSome then wasmDispatch ctx op answer else pure (wasmStub m answer)
  return {
    symbol := op.symbol ctx.apiName
    params := (if answer = .stored then [.result leadingResult] else []) ++ params
      ++ if m.shape = .fallibleValue then [.result Abi.outName] else []
    answer
    body }

/-- The lines of the function. -/
def lines (e : WasmExport) : List Line :=
  Code.lines ["//go:wasmexport " ++ e.symbol]
    ++ Code.block ("func " ++ e.symbol ++ "(" ++ Text.commaSep (e.params.map WasmParam.text) ++ ")"
        ++ e.answer.text) e.body
    ++ [Line.blank]

end WasmExport

/-! ### What the host provides -/

/-- The Go type of a C type of a platform service. -/
def serviceType (c : String) : String :=
  if c = "int32_t" then "int32" else if c = "uint32_t" then "uint32" else "uintptr"

/-- The declaration of a platform service. -/
structure WasmImport where
  symbol : String
  name : String
  /-- Names and types. -/
  params : List (String × String)
  answer : String
deriving DecidableEq, Repr

namespace WasmImport

/-- The declaration of a platform service. -/
def ofService (api : String) (s : Abi.Service) : WasmImport where
  symbol := s.symbol api
  name := "_platform" ++ Naming.pascalCase s.name
  params := s.params.map fun p => (Naming.camelCase p.2, serviceType p.1)
  answer := if s.answer = "void" then "" else " " ++ serviceType s.answer

/-- The lines of the declaration. -/
def lines (i : WasmImport) : List Line :=
  Code.lines ["//go:wasmimport env " ++ i.symbol,
    "func " ++ i.name ++ "(" ++ Text.commaSep (i.params.map fun p => p.1 ++ " " ++ p.2) ++ ")"
      ++ i.answer]

end WasmImport

/-! ### The file -/

/-- The helpers of the exports. -/
def wasmHelpers : List Line :=
  [Code.comment "Allocations handed to the host stay reachable here until it frees them."]
    ++ Code.lines ["var _wasmAllocs sync.Map", "", "//go:wasmexport malloc"]
    ++ Code.block "func _wasmMalloc(size uint32) uintptr"
      (Code.lines ["buf := make([]byte, max(size, 1))", "ptr := uintptr(unsafe.Pointer(&buf[0]))",
        "_wasmAllocs.Store(ptr, buf)", "return ptr"])
    ++ Code.lines ["", "//go:wasmexport free"]
    ++ Code.block "func _wasmFree(ptr uintptr)" (Code.lines ["_wasmAllocs.Delete(ptr)"])
    ++ [Line.blank]
    ++ handleHelpers
    ++ [Code.comment "Memory written into results stays valid until the next call on the same handle",
      Code.comment "or until the handle is destroyed."]
    ++ Code.enclosed "var (" ")"
      (Code.lines ["_retainMu sync.Mutex", "_retained = map[uintptr][]uintptr\x7b\x7d"])
    ++ [Line.blank]
    ++ Code.block "func _retain(key uintptr, size uint32) uintptr"
      (Code.lines ["ptr := _wasmMalloc(size)", "_retainMu.Lock()",
        "_retained[key] = append(_retained[key], ptr)", "_retainMu.Unlock()", "return ptr"])
    ++ [Line.blank]
    ++ Code.block "func _release(key uintptr)"
      (Code.lines ["_retainMu.Lock()", "ptrs := _retained[key]", "delete(_retained, key)",
          "_retainMu.Unlock()"]
        ++ Code.block "for _, p := range ptrs" (Code.lines ["_wasmFree(p)"]))
    ++ [Line.blank]
    ++ [Code.comment "_cstring reads a NUL-terminated string from linear memory."]
    ++ Code.block "func _cstring(ptr uintptr) string"
      (Code.block "if ptr == 0" (Code.lines ["return \"\""])
        ++ Code.lines ["n := 0"]
        ++ Code.block "for *(*byte)(unsafe.Pointer(ptr + uintptr(n))) != 0" (Code.lines ["n++"])
        ++ Code.lines ["return string(unsafe.Slice((*byte)(unsafe.Pointer(ptr)), n))"])
    ++ [Line.blank]
    ++ [Code.comment "_wasmString copies s into retained memory with a trailing NUL."]
    ++ Code.block "func _wasmString(key uintptr, s string) uint32"
      (Code.lines ["ptr := _retain(key, uint32(len(s)+1))",
        "buf := unsafe.Slice((*byte)(unsafe.Pointer(ptr)), len(s)+1)", "copy(buf, s)",
        "buf[len(s)] = 0", "return uint32(ptr)"])
    ++ [Line.blank]
    ++ Code.block "func _b2u(b bool) uint32"
      (Code.block "if b" (Code.lines ["return 1"]) ++ Code.lines ["return 0"])
    ++ [Line.blank]
    ++ Code.block "func _errorCode(err error, fallback int32) int32"
      (Code.lines ["var coded interface\x7b Code() int32 \x7d"]
        ++ Code.block "if errors.As(err, &coded)" (Code.lines ["return coded.Code()"])
        ++ Code.lines ["return fallback"])
    ++ [Line.blank]

/-- What the file of exports holds besides its fixed parts. -/
structure WasmFile where
  imports : List WasmImport
  codecs : List WasmCodec
  interfaces : List (Interface × List WasmExport)
deriving DecidableEq, Repr

namespace WasmFile

/-- The file of a description. -/
def ofContext (ctx : Context) : Except Fault WasmFile := do
  let codecs ← WasmCodec.all ctx.types
  let interfaces ← ctx.api.interfaces.mapM fun i => do
    return (i, ← i.operations.mapM (WasmExport.ofOperation ctx))
  return { imports := Abi.services.map (WasmImport.ofService ctx.apiName), codecs, interfaces }

/-- The lines of the file. -/
def lines (f : WasmFile) : List Line :=
  Code.lines ["//go:build wasip1", "", "package main", ""]
    ++ importLines
    ++ wasmHelpers
    ++ [Code.comment "Platform services provided by the host.", Line.blank]
    ++ f.imports.flatMap WasmImport.lines
    ++ [Line.blank]
    ++ f.codecs.flatMap WasmCodec.lines
    ++ f.interfaces.flatMap fun (i, es) =>
      Code.lines ["/* " ++ i.name ++ " */", ""] ++ es.flatMap WasmExport.lines

end WasmFile

end Bindery.Go
