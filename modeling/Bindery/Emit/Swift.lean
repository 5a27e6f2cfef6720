import Bindery.Emit.Context

/-!
# The Swift binding

One file with an enumeration for each error type, a class for each handle and a
name space for the functions that belong to no handle. Records and enumerations
keep the names under which Swift imports them from C.

A call that needs the address of a text, a buffer or a record stands inside the
closures that provide it. Function bodies are built from a list of such scopes and
one call.
-/

namespace Bindery.Swift

/-! ### Names -/

/-- The reserved words. -/
def keywords : List String :=
  ["as", "break", "case", "catch", "class", "continue", "default", "defer", "deinit", "do", "else",
    "enum", "extension", "false", "for", "func", "guard", "if", "import", "in", "init", "inout",
    "internal", "is", "let", "nil", "operator", "private", "protocol", "public", "repeat", "return",
    "self", "static", "struct", "subscript", "super", "switch", "throw", "throws", "true", "try",
    "var", "where", "while"]

/-- A name between backticks when it is reserved. -/
def escape (name : String) : String :=
  if keywords.contains name then "`" ++ name ++ "`" else name

/-- A name in Swift: camel case, escaped. -/
def identifier (name : String) : String := escape (Naming.camelCase name)

/-- How many characters of an enumeration value's name go to lower case: the upper
case letters in front, but for the one that starts the next word. -/
def loweredFront (cs : List Char) : Nat :=
  let run := (cs.takeWhile Char.isUpper).length
  if 1 < run && ((cs.drop run).head?.any Char.isLower) then run - 1 else run

/-- The case of an enumeration value. -/
def caseName (value : String) : String :=
  let cs := value.toList
  if cs.contains '_' then identifier (Text.mapChars Char.toLower value)
  else
    let n := loweredFront cs
    escape (String.ofList ((cs.take n).map Char.toLower ++ cs.drop n))

/-! ### Error enumerations -/

/-- The enumeration of an error type. -/
structure ErrorEnum where
  name : String
  cases : List (String × Int)
  /-- The case of a code that has none of its own. -/
  fallback : String
deriving DecidableEq, Repr

namespace ErrorEnum

/-- The enumeration of an error type. -/
def ofType (ctx : Context) (errorType : String) : Except Fault ErrorEnum := do
  let d ← ctx.typeDef errorType
  match d.values.find? (·.name == "InternalError") <|> d.values.getLast? with
  | none => throw (.unsupported ("error enum " ++ errorType ++ " has no values"))
  | some v =>
    return {
      name := Naming.flatTypeName errorType
      cases := d.values.map fun v => (caseName v.name, v.value)
      fallback := caseName v.name }

/-- The lines of the enumeration. -/
def lines (e : ErrorEnum) : List Line :=
  Code.block ("public enum " ++ e.name ++ ": Int32, Error")
    (Code.lines (e.cases.map fun c => "case " ++ c.1 ++ " = " ++ toString c.2)
      ++ [Line.blank]
      ++ Code.block ("static func fromCode(_ code: Int32) -> " ++ e.name)
        (Code.lines ["return " ++ e.name ++ "(rawValue: code) ?? ." ++ e.fallback]))
    ++ [Line.blank]

end ErrorEnum

/-! ### Arguments -/

/-- An argument of the call into the C interface. -/
inductive Arg where
  /-- The handle of the receiver. -/
  | receiver
  /-- What a scope provides under a name: a text or the address of a record. -/
  | borrowed (name : String)
  | elements (name : String)
  | count (name : String)
  | handle (name : String)
  | plain (name : String)
  /-- The address of a variable. -/
  | address (name : String)
  /-- Where the result goes. -/
  | result
deriving DecidableEq, Repr

/-- The Swift expression. -/
def Arg.swift : Arg → String
  | receiver => "handle"
  | borrowed n => n
  | elements n => n ++ ".baseAddress"
  | count n => "UInt32(" ++ n ++ ".count)"
  | handle n => n ++ ".handle"
  | plain n => n
  | address n => "&" ++ n
  | result => "&result"

/-- What a parameter takes: its declaration, the scopes around the call, and the
arguments. -/
structure Lowered where
  /-- Name and type. -/
  decl : String × String
  scopes : List String := []
  args : List Arg
deriving DecidableEq, Repr

/-- How a parameter is brought to the C interface. -/
def lower (ctx : Context) (p : Parameter) : Except Fault Lowered := do
  let name := identifier p.name
  let ptr := Naming.camelCase p.name ++ "Ptr"
  let transfer := p.effectiveTransfer
  match ← Abi.classify p.type with
  | .string =>
    return { decl := (name, "String"), scopes := [name ++ ".withCString \x7b " ++ ptr ++ " in"],
             args := [.borrowed ptr] }
  | .buffer element =>
    let list := "[" ++ element.row.swift ++ "]"
    let args := [Arg.elements ptr, .count ptr]
    if transfer.isMut then
      return { decl := (name, "inout " ++ list), args,
               scopes := [name ++ ".withUnsafeMutableBufferPointer \x7b " ++ ptr ++ " in"] }
    else
      return { decl := (name, list), args,
               scopes := [name ++ ".withUnsafeBufferPointer \x7b " ++ ptr ++ " in"] }
  | .handle h => return { decl := (name, h), args := [.handle name] }
  | .primitive q => return { decl := (name, q.row.swift), args := [.plain name] }
  | .qualified q =>
    let c := Naming.cTypeName q
    let d ← ctx.typeDef q
    match d.isRecord, transfer with
    | true, .refMut => return { decl := (name, "inout " ++ c), args := [.address name] }
    | true, .ref =>
      return { decl := (name, c), args := [.borrowed ptr],
               scopes := ["withUnsafePointer(to: " ++ name ++ ") \x7b " ++ ptr ++ " in"] }
    | _, _ => return { decl := (name, c), args := [.plain name] }

/-! ### Results -/

/-- The type of a result. -/
inductive Result where
  | handle (name : String)
  | primitive (p : Primitive)
  /-- A schema type. -/
  | schema (name : String)
deriving DecidableEq, Repr

namespace Result

/-- The result that a type gives. -/
def ofText (ty : String) : Except Fault Result := do
  match ← Abi.classify ty with
  | .handle h => return handle h
  | .primitive p => return primitive p
  | .qualified q => return schema q
  | .string | .buffer _ =>
    throw (.unsupported (ty ++ " cannot be returned across the C boundary"))

/-- The type in Swift. -/
def swift : Result → String
  | handle h => h
  | primitive p => p.row.swift
  | schema q => Naming.cTypeName q

/-- The value before the call. -/
def zero : Result → String
  | handle _ => "nil"
  | primitive .bool => "false"
  | primitive _ => "0"
  | schema q => Naming.cTypeName q ++ "()"

end Result

/-! ### Functions -/

/-- A public function. -/
structure Function where
  isStatic : Bool
  description : Option String
  name : String
  /-- Names and types. -/
  params : List (String × String)
  scopes : List String
  /-- The function of the C interface. -/
  symbol : String
  args : List Arg
  /-- The error enumeration that is thrown. -/
  error : Option String
  result : Option Result
deriving DecidableEq, Repr

namespace Function

/-- The function of an operation. On an instance the receiver stands for the first
parameter. -/
def ofOperation (ctx : Context) (isStatic : Bool) (op : Operation) : Except Fault Function := do
  let m := op.method
  let own := if isStatic then m.parameters else m.parameters.drop 1
  let lowered ← own.mapM (lower ctx)
  let result ← match m.returns with
    | none => pure none
    | some r => (Result.ofText r.type).map some
  return {
    isStatic
    description := m.description
    name := identifier m.name
    params := lowered.map (·.decl)
    scopes := lowered.flatMap (·.scopes)
    symbol := op.symbol ctx.apiName
    args := (if isStatic then [] else [.receiver]) ++ lowered.flatMap (·.args)
      ++ if m.shape = .fallibleValue then [.result] else []
    error := m.error.map Naming.flatTypeName
    result }

/-- The declaration. -/
def head (f : Function) : String :=
  "public " ++ (if f.isStatic then "static " else "") ++ "func " ++ f.name ++ "("
    ++ Text.commaSep (f.params.map fun p => p.1 ++ ": " ++ p.2) ++ ")"
    ++ (if f.error.isSome then " throws" else "")
    ++ match f.result with
      | some r => " -> " ++ r.swift
      | none => ""

/-- The call into the C interface. -/
def call (f : Function) : String :=
  f.symbol ++ "(" ++ Text.commaSep (f.args.map Arg.swift) ++ ")"

/-- The guard against a failure. -/
def guardLines (condition error : String) : List Line :=
  Code.block ("guard " ++ condition ++ " else") (Code.lines ["throw " ++ error ++ ".fromCode(code)"])

/-- The call and what is done with its result. -/
def callLines (f : Function) : List Line :=
  match f.error, f.result with
  | none, none => Code.lines [f.call]
  | none, some (.handle h) => Code.lines ["return " ++ h ++ "(handle: " ++ f.call ++ "!)"]
  | none, some _ => Code.lines ["return " ++ f.call]
  | some e, none => Code.lines ["let code = " ++ f.call] ++ guardLines "code == 0" e
  | some e, some (.handle h) =>
    Code.lines ["var result: OpaquePointer? = nil", "let code = " ++ f.call]
      ++ guardLines "code == 0, let ptr = result" e
      ++ Code.lines ["return " ++ h ++ "(handle: ptr)"]
  | some e, some r =>
    Code.lines ["var result: " ++ r.swift ++ " = " ++ r.zero, "let code = " ++ f.call]
      ++ guardLines "code == 0" e
      ++ Code.lines ["return result"]

/-- The words in front of a scope. -/
def lead (f : Function) (outermost : Bool) : String :=
  (if outermost && f.result.isSome then "return " else "")
    ++ if f.error.isSome then "try " else ""

/-- Code inside scopes. -/
def within (f : Function) (outermost : Bool) (inner : List Line) : List String → List Line
  | [] => inner
  | scope :: rest =>
    Code.enclosed (f.lead outermost ++ scope) "\x7d" (f.within false inner rest)

/-- The lines of the function. -/
def lines (f : Function) : List Line :=
  Code.lines (f.description.toList.map fun d => "/// " ++ d)
    ++ Code.block f.head (f.within true f.callLines f.scopes)

end Function

/-! ### Classes -/

/-- The class of a handle. -/
structure HandleClass where
  handle : Handle
  /-- The symbol that ends the life of the handle. -/
  destructor : Option String
  functions : List Function
deriving DecidableEq, Repr

namespace HandleClass

/-- The constructors that return a handle. -/
def constructors (api : Api) (handle : String) : List Operation :=
  api.operations.filter fun op =>
    op.kind = .constructor && op.method.returnedHandle? == some handle

/-- The methods on a handle. -/
def methods (api : Api) (handle : String) : List Operation :=
  api.operations.filter fun op => op.kind = .method && op.method.leadingHandle? == some handle

/-- The class of a handle. -/
def ofHandle (ctx : Context) (h : Handle) : Except Fault HandleClass := do
  let makers ← (constructors ctx.api h.name).mapM (Function.ofOperation ctx true)
  let others ← (methods ctx.api h.name).mapM (Function.ofOperation ctx false)
  return { handle := h, destructor := ctx.api.destructorSymbol? h.name, functions := makers ++ others }

/-- The lines of the class. -/
def lines (c : HandleClass) : List Line :=
  Code.lines (c.handle.description.toList.map fun d => "/// " ++ d)
    ++ Code.block ("public final class " ++ c.handle.name)
      (Code.lines ["let handle: OpaquePointer", ""]
        ++ Code.block "init(handle: OpaquePointer)" (Code.lines ["self.handle = handle"])
        ++ (match c.destructor with
          | some symbol => [Line.blank] ++ Code.block "deinit" (Code.lines [symbol ++ "(handle)"])
          | none => [])
        ++ c.functions.flatMap fun f => [Line.blank] ++ f.lines)
    ++ [Line.blank]

end HandleClass

/-- The methods that belong to no declared handle. -/
def freeMethods (api : Api) : List Operation :=
  api.operations.filter fun op =>
    op.kind = .method && !(op.method.leadingHandle?.any fun h => api.handles.any (·.name = h))

/-- The name space of free functions; there is none without functions. -/
def namespaceLines (name : String) : List Function → List Line
  | [] => []
  | f :: rest =>
    Code.block ("public enum " ++ name) (f.lines ++ rest.flatMap fun g => [Line.blank] ++ g.lines)
      ++ [Line.blank]

/-! ### The file -/

/-- What the Swift file holds. -/
structure Source where
  errors : List ErrorEnum
  classes : List HandleClass
  free : List Function
deriving DecidableEq, Repr

/-- The Swift file of a description. -/
def Source.ofContext (ctx : Context) : Except Fault Source := do
  let errors ← ctx.api.errorTypes.mapM (ErrorEnum.ofType ctx)
  let classes ← ctx.api.handles.mapM (HandleClass.ofHandle ctx)
  let free ← (freeMethods ctx.api).mapM (Function.ofOperation ctx true)
  return { errors, classes, free }

/-- The lines of the file. -/
def Source.lines (ctx : Context) (s : Source) : List Line :=
  Code.lines ["import Foundation", ""]
    ++ s.errors.flatMap ErrorEnum.lines
    ++ s.classes.flatMap HandleClass.lines
    ++ namespaceLines ctx.pascalApi s.free

/-- The files of the binding. -/
def emit (ctx : Context) : Except Fault (List Artifact) := do
  let s ← Source.ofContext ctx
  return [ctx.generatedFile (ctx.pascalApi ++ ".swift") Code.fourBlanks (s.lines ctx)]

end Bindery.Swift
