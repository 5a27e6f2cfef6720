import Bindery.Api.Operation
import Bindery.Code.Line
import Bindery.Emit.Fault
import Bindery.Text.Quoted

/-!
# Signatures of the C interface

Every operation becomes one C function. Texts are `const char*`, buffers are a
pointer and a length, handles and scalars are passed as they are, and a schema
type is passed by value or by pointer as its transfer says. An operation that can
fail returns a status, and its result, if any, goes through a trailing pointer.

A signature is kept as a value, and its text is derived from it, so that other
emitters can be compared with it argument by argument.
-/

namespace Bindery.Abi

/-! ### Types -/

/-- A type that can be returned. -/
inductive ValueType where
  | handle (name : String)
  | primitive (p : Primitive)
  /-- A schema type. -/
  | schema (name : String)
deriving DecidableEq, Repr

/-- The C spelling. -/
def ValueType.c : ValueType → String
  | handle name => Naming.handleTypedef name
  | primitive p => p.row.c
  | schema name => Naming.cTypeName name

/-- The fault of a type that has none of the five forms. -/
def unknownType (ty : String) : Fault :=
  .unsupported ("unknown type class " ++ Text.quoted ty)

/-- Sorts the text of a type, or gives up. -/
def classify (ty : String) : Except Fault TypeRef :=
  match TypeRef.ofString? ty with
  | some t => .ok t
  | none => .error (unknownType ty)

/-- The type of a value that crosses the boundary as a whole. -/
def ValueType.ofText (ty : String) : Except Fault ValueType :=
  match TypeRef.ofString? ty with
  | some (.handle h) => .ok (.handle h)
  | some (.primitive p) => .ok (.primitive p)
  | some (.qualified q) => .ok (.schema q)
  | some .string | some (.buffer _) =>
    .error (.unsupported (ty ++ " cannot cross the C boundary as a value"))
  | none => .error (unknownType ty)

/-- The type of one argument. -/
inductive ArgType where
  /-- A borrowed text. -/
  | text
  /-- The elements of a buffer. -/
  | elements (p : Primitive) (writable : Bool)
  /-- The length of a buffer. -/
  | length
  | value (v : ValueType)
  /-- A schema type by address. -/
  | pointer (name : String) (writable : Bool)
  /-- Where the result goes. -/
  | result (v : ValueType)
deriving DecidableEq, Repr

/-- A pointer type, to constant data unless it is writable. -/
def pointerTo (pointee : String) (writable : Bool) : String :=
  if writable then pointee ++ "*" else "const " ++ pointee ++ "*"

/-- The C spelling. -/
def ArgType.c : ArgType → String
  | text => "const char*"
  | elements p writable => pointerTo p.row.c writable
  | length => "uint32_t"
  | value v => v.c
  | pointer name writable => pointerTo (Naming.cTypeName name) writable
  | result v => v.c ++ "*"

/-! ### Parameters -/

/-- A parameter of a C function. -/
structure Param where
  type : ArgType
  name : String
deriving DecidableEq, Repr

/-- The declaration of the parameter. -/
def Param.declaration (p : Param) : String := p.type.c ++ " " ++ p.name

/-- The name of the length that goes with a buffer. -/
def lengthName (buffer : String) : String := buffer ++ "_len"

/-- How a schema type is passed under a transfer. -/
def schemaArg (name : String) : Transfer → ArgType
  | .value => .value (.schema name)
  | .ref => .pointer name false
  | .refMut => .pointer name true

/-- What a parameter of an operation becomes. -/
def lower (p : Parameter) : Except Fault (List Param) := do
  match ← classify p.type with
  | .string => return [⟨.text, p.name⟩]
  | .buffer elem =>
    return [⟨.elements elem p.effectiveTransfer.isMut, p.name⟩, ⟨.length, lengthName p.name⟩]
  | .handle h => return [⟨.value (.handle h), p.name⟩]
  | .primitive q => return [⟨.value (.primitive q), p.name⟩]
  | .qualified q => return [⟨schemaArg q p.effectiveTransfer, p.name⟩]

/-! ### Functions -/

/-- What a C function returns. -/
inductive Answer where
  | void
  /-- Zero for success, else a value of the error enumeration. -/
  | status
  | value (v : ValueType)
deriving DecidableEq, Repr

/-- The C spelling. -/
def Answer.c : Answer → String
  | void => "void"
  | status => "int32_t"
  | value v => v.c

/-- A C function. -/
structure Signature where
  answer : Answer
  symbol : String
  /-- What the parameters of the operation become. -/
  args : List Param
  /-- What the trailing pointer points to. -/
  out : Option ValueType := none
deriving DecidableEq, Repr

/-- The name of the trailing pointer. -/
def outName : String := "out_result"

namespace Signature

/-- All parameters, the trailing pointer included. -/
def params (s : Signature) : List Param :=
  s.args ++ s.out.toList.map (⟨.result ·, outName⟩)

/-- The signature of an operation under a symbol. -/
def ofMethod (symbol : String) (m : Method) : Except Fault Signature := do
  let args := (← m.parameters.mapM lower).flatten
  match m.error, m.returns with
  | none, none => return ⟨.void, symbol, args, none⟩
  | some _, none => return ⟨.status, symbol, args, none⟩
  | none, some r => return ⟨.value (← ValueType.ofText r.type), symbol, args, none⟩
  | some _, some r => return ⟨.status, symbol, args, some (← ValueType.ofText r.type)⟩

/-- The signature of an operation. -/
def ofOperation (api : String) (op : Operation) : Except Fault Signature :=
  ofMethod (op.symbol api) op.method

/-- The names of the parameters. -/
def argNames (s : Signature) : List String := s.params.map (·.name)

/-- The parameters between the parentheses. -/
def paramList (s : Signature) : String :=
  if s.params.isEmpty then "void" else Text.commaSep (s.params.map Param.declaration)

/-- The text before the opening parenthesis. A lead word, such as an export macro,
may stand in front. -/
def start (s : Signature) (lead : Option String) : String :=
  match lead with
  | some word => word ++ " " ++ s.answer.c ++ " " ++ s.symbol
  | none => s.answer.c ++ " " ++ s.symbol

/-- The signature on one line. -/
def head (s : Signature) (lead : Option String) : String :=
  s.start lead ++ "(" ++ s.paramList ++ ")"

/-- Longer prototypes, counted in bytes and without the lead word, are broken. -/
def maxWidth : Nat := 80

/-- One parameter a line, each but the last with a comma. -/
def paramLines (terminator : String) : List Param → List Line
  | [] => []
  | [p] => [p.declaration ++ ")" ++ terminator]
  | p :: q :: rest => (p.declaration ++ "," : String) :: paramLines terminator (q :: rest)

/-- The signature on one line if it is short, else one parameter a line. -/
def lines (s : Signature) (lead : Option String) (terminator : String) : List Line :=
  if (s.head none).utf8ByteSize ≤ maxWidth || s.params.isEmpty then
    [s.head lead ++ terminator]
  else
    (s.start lead ++ "(" : String) :: Code.indent (paramLines terminator s.params)

end Signature

end Bindery.Abi
