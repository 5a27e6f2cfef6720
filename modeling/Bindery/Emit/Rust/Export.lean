import Bindery.Emit.Rust.Trait

/-!
# Exported functions

Each symbol of the C interface is an `extern "C"` function that turns its arguments
into what the trait borrows, calls the trait's method and hands the answer back. An
operation that can fail returns zero or its error as a number, and its result, if
any, goes through a trailing pointer.
-/

namespace Bindery.Rust

/-! ### Parameters and arguments -/

/-- A parameter as the C interface passes it. -/
def passedParams (p : Parameter) : Except Fault (List Binding) := do
  let name ← chosenName p.name
  match ← Abi.classify p.type with
  | .string => return [⟨name, .pointer false .cChar⟩]
  | .buffer element =>
    let length ← literalName (Abi.lengthName p.name)
    return [⟨name, .pointer p.effectiveTransfer.isMut (.primitive element)⟩,
      ⟨length, .primitive .uint32⟩]
  | .handle _ => return [⟨name, .handle⟩]
  | .primitive q => return [⟨name, .primitive q⟩]
  | .qualified q =>
    let t := Ty.schema (← typeName q)
    match p.effectiveTransfer with
    | .value => return [⟨name, t⟩]
    | .ref => return [⟨name, .pointer false t⟩]
    | .refMut => return [⟨name, .pointer true t⟩]

/-- What is done with a C argument before the call. -/
inductive Conversion where
  /-- A text is read up to its zero. -/
  | text (name : String)
  /-- A pointer and a length become a slice; a null pointer is an empty one. -/
  | slice (name length : String) (isMut : Bool) (element : Primitive)
deriving DecidableEq, Repr

namespace Conversion

/-- The bytes of a text as far as they are one. -/
def textDoc (name : String) : Doc :=
  .even Doc.step
    ([.even (-Doc.step) [.text "CStr::from_ptr"]] ++ arguments [[.text name]]
      ++ [.zero, .text ".to_string_lossy", .even 0 [.text "()"]])

/-- Whether there are no elements. -/
def isEmptyDoc (name length : String) : Doc :=
  let isNull := Doc.even Doc.step
    [.even (-Doc.step) [.text name], .zero, .text ".is_null", .even 0 [.text "()"]]
  let isZero := Doc.filled Doc.step
    [.filled (-Doc.step) [.text length], .blank, .text "== 0"]
  .filled Doc.step [.filled (-Doc.step) [isNull], .blank, .text "|| ", isZero]

/-- The slice over a pointer and a length. -/
def sliceDoc (name length : String) (isMut : Bool) : List Doc :=
  let size := Doc.filled Doc.step [.filled (-Doc.step) [.text length], .blank, .text "as usize"]
  .text (if isMut then "std::slice::from_raw_parts_mut" else "std::slice::from_raw_parts")
    :: arguments [[.text name], [size]]

/-- A branch of a choice. -/
def branch (body : List Doc) : List Doc :=
  [.text "\x7b", .blank, .filled 0 body, .stop (.soft 1) (-Doc.step) "", .text "\x7d"]

/-- The statement. -/
def doc : Conversion → List Doc
  | text name => [.filled 0 [.text ("let " ++ name ++ " = "), .joint, textDoc name, .text ";"]]
  | slice name length isMut element =>
    let type := Ty.reference isMut (.slice (.primitive element))
    let choice := Doc.even Doc.step
      ([.text "if ", .even (-Doc.step) [.even 0 [isEmptyDoc name length, .blank]]]
        ++ branch [.text (if isMut then "&mut []" else "&[]")]
        ++ .text " else " :: branch (sliceDoc name length isMut))
    [.filled 0 (.text ("let " ++ name ++ ": ") :: type.doc
      ++ [.text " = ", .joint, choice, .text ";"])]

end Conversion

/-- How an argument reaches the method. -/
structure Handover where
  /-- What is done first. -/
  conversion : Option Conversion := none
  argument : String
deriving DecidableEq, Repr

/-- How a parameter reaches the method. -/
def handover (ctx : Context) (p : Parameter) : Except Fault Handover := do
  let name ← chosenName p.name
  match ← Abi.classify p.type with
  | .string => return { conversion := some (.text name), argument := "&" ++ name }
  | .buffer element =>
    let length ← literalName (Abi.lengthName p.name)
    return { conversion := some (.slice name length p.effectiveTransfer.isMut element)
             argument := name }
  | .handle _ | .primitive _ => return { argument := name }
  | .qualified q =>
    match p.effectiveTransfer with
    | .value => return { argument := if ctx.isEnum q then name else "&" ++ name }
    | .ref => return { argument := "&*" ++ name }
    | .refMut => return { argument := "&mut *" ++ name }

/-! ### Functions -/

/-- An exported function. -/
structure Export where
  signature : Signature
  /-- The trait and the method behind it. -/
  target : String × String
  handovers : List Handover
  shape : CallShape
deriving DecidableEq, Repr

namespace Export

/-- The parameter through which a result goes. -/
def outParam (type : Ty) : Binding := ⟨Abi.outName, .pointer true type⟩

/-- The exported function of an operation. -/
def ofOperation (ctx : Context) (op : Operation) : Except Fault Export := do
  let m := op.method
  let name ← literalName (op.symbol ctx.apiName)
  let trait ← traitName op.interface
  let method ← chosenName m.name
  let passed ← m.parameters.mapM fun p => do return (← passedParams p, ← handover ctx p)
  let params := passed.flatMap (·.1)
  let signature ← match m.isFallible, m.returnType? with
    | true, some ty => do
      let t ← valueType ty
      pure { name, hasSelf := false, params := params ++ [outParam t]
             answer := some (.primitive .int32) : Signature }
    | true, none => pure { name, hasSelf := false, params, answer := some (.primitive .int32) }
    | false, some ty => do
      let t ← valueType ty
      pure { name, hasSelf := false, params, answer := some t }
    | false, none => pure { name, hasSelf := false, params, answer := none }
  return { signature, target := (trait, method), handovers := passed.map (·.2), shape := m.shape }

/-- The call of the method. -/
def call (e : Export) : List Doc :=
  .text (e.target.1 ++ "::" ++ e.target.2)
    :: arguments ([.text "&Impl"] :: e.handovers.map fun h => [.text h.argument])

/-- The choice between an answer and an error. -/
def choice (e : Export) (success : List Doc) : List Doc :=
  [.filled 0 [.text "match ", .even 0 (e.call ++ [.text " "]), .text "\x7b", .joint,
    .even Doc.step (.newline :: Doc.lines [success, [.text "Err(err) => err as i32,"]]),
    .text "\x7d"]]

/-- The last step of the body. -/
def finish (e : Export) : List Doc :=
  match e.shape with
  | .fallibleValue =>
    e.choice (braced [.text "Ok(value) =>"] [[.text ("*" ++ Abi.outName ++ " = value;")], [.text "0"]])
  | .fallibleVoid => e.choice [.text "Ok(()) => 0,"]
  | .infallibleValue => [.filled 0 e.call]
  | .infallibleVoid => [.filled 0 (e.call ++ [.text ";"])]

/-- The definition. -/
def doc (e : Export) : List Doc :=
  under ["#[no_mangle]"] (braced (.text "pub unsafe extern \"C\" " :: e.signature.doc)
    ((e.handovers.filterMap fun h => h.conversion.map Conversion.doc) ++ [e.finish]))

end Export

/-- The exported functions. -/
def exports (ctx : Context) : Except Fault (List Export) :=
  ctx.api.operations.mapM (Export.ofOperation ctx)

end Bindery.Rust
