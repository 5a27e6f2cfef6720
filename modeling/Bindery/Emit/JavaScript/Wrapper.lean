import Bindery.Emit.JavaScript.Codec
import Bindery.Emit.JavaScript.Prelude

/-!
# Calls from JavaScript

A wrapper brings its arguments into linear memory, calls the exported function,
copies back what was written, reads the result, and frees in a `finally` whatever
it allocated. Each of these steps is a value, so that what is allocated can be
compared with what is freed, and what is passed with what the exported function
declares.
-/

namespace Bindery.JavaScript

/-! ### Steps -/

/-- A statement before the call. -/
inductive Setup where
  /-- A list for the allocations that writing a record makes. -/
  | allocs
  /-- A copy of a text. -/
  | encode (ptr value : String)
  /-- A copy of a buffer. -/
  | copyBuffer (ptr len value : String)
  /-- Room for a value. -/
  | reserve (ptr : String) (size : Nat)
  /-- A value into its room. -/
  | store (cell : Cell) (ptr value : String)
deriving DecidableEq, Repr

namespace Setup

/-- The statement. -/
def text : Setup → String
  | allocs => "const allocs = [];"
  | encode ptr value => "const " ++ ptr ++ " = _encodeString(" ++ value ++ ");"
  | copyBuffer ptr len value =>
    "const [" ++ ptr ++ ", " ++ len ++ "] = _copyBufferToWasm(" ++ value ++ ");"
  | reserve ptr size => "const " ++ ptr ++ " = _malloc(" ++ toString size ++ ");"
  | store cell ptr value => cell.write ptr value

/-- The pointer that the statement allocates. -/
def allocated? : Setup → Option String
  | encode ptr _ => some ptr
  | copyBuffer ptr _ _ => some ptr
  | reserve ptr _ => some ptr
  | allocs | store _ _ _ => none

/-- The names that the statement declares. -/
def declared : Setup → List String
  | allocs => ["allocs"]
  | encode ptr _ => [ptr]
  | copyBuffer ptr len _ => [ptr, len]
  | reserve ptr _ => [ptr]
  | store _ _ _ => []

end Setup

/-- An argument of the exported function. -/
inductive Arg where
  | pointer (name : String)
  | length (name : String)
  | handle (name : String)
  | bool (name : String)
  | number (name : String)
  /-- Where the result goes. -/
  | result
deriving DecidableEq, Repr

/-- The pointer to the result. -/
def outPtr : String := "_outPtr"

/-- The expression. -/
def Arg.text : Arg → String
  | pointer n => n
  | length n => n
  | handle n => n ++ "._ptr"
  | bool n => n ++ " ? 1 : 0"
  | number n => n
  | result => outPtr

/-- A copy back into a parameter. -/
inductive WriteBack where
  | buffer (ptr value : String)
  | record (name ptr value : String)
deriving DecidableEq, Repr

/-- The statement. -/
def WriteBack.text : WriteBack → String
  | buffer ptr value => "_copyBufferFromWasm(" ++ ptr ++ ", " ++ value ++ ");"
  | record name ptr value =>
    "Object.assign(" ++ value ++ ", _read" ++ Naming.flatTypeName name ++ "(" ++ ptr ++ "));"

/-! ### Parameters -/

/-- What a parameter takes. -/
structure Marshalled where
  setup : List Setup := []
  args : List Arg
  frees : List String := []
  writeBacks : List WriteBack := []
  /-- Whether allocations are collected in a list. -/
  usesAllocs : Bool := false
deriving DecidableEq, Repr

/-- The pointer of a parameter. -/
def ptrName (p : Parameter) : String := "_" ++ Naming.camelCase p.name ++ "Ptr"

/-- The length of a buffer parameter. -/
def lenName (p : Parameter) : String := "_" ++ Naming.camelCase p.name ++ "Len"

/-- How a schema type is passed: enumerations by value as they are, all else by
address. -/
def marshalSchema (ctx : Context) (p : Parameter) (q : String) : Except Fault Marshalled :=
  let name := identifier p.name
  let ptr := ptrName p
  match Cell.ofName? ctx.types q with
  | none => .error (.missingType q)
  | some cell =>
    match cell, p.effectiveTransfer with
    | .scalar _, .value => .ok { args := [.number name] }
    | cell, transfer => do
      let size ← (Abi.valueSize ctx.types p.type).mapError layoutFault
      return {
        setup := [.reserve ptr size, .store cell ptr name]
        args := [.pointer ptr]
        frees := [ptr]
        writeBacks := match cell, transfer with
          | .record r, .refMut => [.record r ptr name]
          | _, _ => []
        usesAllocs := cell matches .record _ }

/-- How a parameter is passed. -/
def marshal (ctx : Context) (p : Parameter) : Except Fault Marshalled := do
  let name := identifier p.name
  let ptr := ptrName p
  match ← Abi.classify p.type with
  | .string => return { setup := [.encode ptr name], args := [.pointer ptr], frees := [ptr] }
  | .buffer _ =>
    return {
      setup := [.copyBuffer ptr (lenName p) name]
      args := [.pointer ptr, .length (lenName p)]
      frees := [ptr]
      writeBacks := if p.effectiveTransfer = .refMut then [.buffer ptr name] else [] }
  | .handle _ => return { args := [.handle name] }
  | .primitive .bool => return { args := [.bool name] }
  | .primitive _ => return { args := [.number name] }
  | .qualified q => marshalSchema ctx p q

/-! ### Results -/

/-- What a wrapper does with the call. -/
inductive Outcome where
  | done
  /-- A status is checked. -/
  | status
  /-- A status is checked, then an expression reads the result. -/
  | statusThen (result : String)
  /-- The result is read by an expression. -/
  | stored (result : String)
  /-- The call gives the result, which an expression converts. -/
  | direct (result : String)
deriving DecidableEq, Repr

/-- The expression that reads a result from memory. -/
def readResult (ctx : Context) (ty : String) : Except Fault String := do
  match ← Abi.classify ty with
  | .handle h => return "new " ++ h ++ "(_view().getUint32(" ++ outPtr ++ ", true))"
  | .primitive p => return (Cell.scalar p).read outPtr
  | .qualified q =>
    match Cell.ofName? ctx.types q with
    | some cell => return cell.read outPtr
    | none => throw (.missingType q)
  | .string | .buffer _ => throw (.unsupported (ty ++ " cannot be returned by value"))

/-- The expression that converts a result that the call gives. -/
def convertResult (ty : String) : Except Fault String := do
  match ← Abi.classify ty with
  | .handle h => return "new " ++ h ++ "(_result)"
  | .primitive .bool => return "_result !== 0"
  | _ => return "_result"

/-- Where a result pointer stands among the arguments. -/
inductive ResultPlace where
  | leading | trailing
deriving DecidableEq, Repr

/-- Whether a method has a result pointer, and where: a record in front, and what
comes with a status behind. -/
def resultPlace? (ctx : Context) (m : Method) : Option (ResultPlace × String) :=
  match m.error, m.returns with
  | some _, some r => some (.trailing, r.type)
  | none, some r => if Abi.isRecordType ctx.types r.type then some (.leading, r.type) else none
  | _, none => none

/-- What is done with the call of a method. -/
def outcomeOf (ctx : Context) (m : Method) : Except Fault Outcome :=
  match m.error, m.returns with
  | some _, some r => (readResult ctx r.type).map .statusThen
  | some _, none => .ok .status
  | none, some r =>
    if Abi.isRecordType ctx.types r.type then (readResult ctx r.type).map .stored
    else (convertResult r.type).map .direct
  | none, none => .ok .done

/-! ### Wrappers -/

/-- A function around one exported function. -/
structure Wrapper where
  name : String
  params : List String
  setup : List Setup
  /-- The exported function. -/
  symbol : String
  args : List Arg
  writeBacks : List WriteBack
  outcome : Outcome
  frees : List String
  usesAllocs : Bool
deriving DecidableEq, Repr

namespace Wrapper

/-- The wrapper of an operation. -/
def ofOperation (ctx : Context) (op : Operation) : Except Fault Wrapper := do
  let m := op.method
  let parts ← m.parameters.mapM (marshal ctx)
  let room ← match resultPlace? ctx m with
    | none => pure none
    | some (place, ty) => do
      let size ← (Abi.valueSize ctx.types ty).mapError layoutFault
      pure (some (place, size))
  let outcome ← outcomeOf ctx m
  let usesAllocs := parts.any (·.usesAllocs)
  let atPlace (place : ResultPlace) : List Arg :=
    match room with
    | some (q, _) => if q = place then [.result] else []
    | none => []
  return {
    name := Naming.camelCase m.name
    params := m.parameters.map fun p => identifier p.name
    setup := (if usesAllocs then [.allocs] else []) ++ parts.flatMap (·.setup)
      ++ (room.map fun r => Setup.reserve outPtr r.2).toList
    symbol := op.symbol ctx.apiName
    args := atPlace .leading ++ parts.flatMap (·.args) ++ atPlace .trailing
    writeBacks := parts.flatMap (·.writeBacks)
    outcome
    frees := parts.flatMap (·.frees) ++ (room.map fun _ => outPtr).toList
    usesAllocs }

/-- The call of the exported function. -/
def exportCall (w : Wrapper) : ExportCall := ⟨w.symbol, w.args.map Arg.text⟩

/-- The expression of the call. -/
def call (w : Wrapper) : String := w.exportCall.text

/-- The check of the status. -/
def statusLines (w : Wrapper) : List Line :=
  Code.lines ["const _rc = " ++ w.call ++ ";"]
    ++ Code.block "if (_rc !== 0)"
      (Code.lines ["throw new Error(`" ++ w.name ++ " failed with error code $\x7b_rc\x7d`);"])

/-- The call, what is copied back, and the result. -/
def callLines (w : Wrapper) : List Line :=
  let back := Code.lines (w.writeBacks.map WriteBack.text)
  let answer (e : String) : List Line := Code.lines ["return " ++ e ++ ";"]
  match w.outcome with
  | .done => Code.lines [w.call ++ ";"] ++ back
  | .status => w.statusLines ++ back
  | .statusThen e => w.statusLines ++ back ++ answer e
  | .stored e => Code.lines [w.call ++ ";"] ++ back ++ answer e
  | .direct e => Code.lines ["const _result = " ++ w.call ++ ";"] ++ back ++ answer e

/-- Whether the wrapper has something to free. -/
def allocates (w : Wrapper) : Bool := !w.frees.isEmpty || w.usesAllocs

/-- The statements that free what was allocated. -/
def freeLines (w : Wrapper) : List Line :=
  Code.lines (w.frees.map fun f => "_free(" ++ f ++ ");")
    ++ if w.usesAllocs then Code.lines ["allocs.forEach(_free);"] else []

/-- The statements of the wrapper. -/
def body (w : Wrapper) : List Line :=
  if w.allocates then
    Code.lines (w.setup.map Setup.text)
      ++ Code.lines ["try \x7b"] ++ Code.indent w.callLines
      ++ Code.lines ["\x7d finally \x7b"] ++ Code.indent w.freeLines ++ Code.lines ["\x7d"]
  else w.callLines

/-- The lines of the wrapper. -/
def lines (w : Wrapper) : List Line :=
  Code.blockWith (w.name ++ "(" ++ Text.commaSep w.params ++ ")") "\x7d," w.body

end Wrapper

/-- The wrappers of an interface: one for each operation but the destructor. -/
def wrappers (ctx : Context) (i : Interface) : Except Fault (List Wrapper) :=
  (i.operations.filter fun op => op.kind ≠ .destructor).mapM (Wrapper.ofOperation ctx)

end Bindery.JavaScript
