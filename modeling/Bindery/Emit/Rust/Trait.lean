import Bindery.Emit.Context
import Bindery.Emit.Rust.Syntax

/-!
# Traits

Each interface is a trait, constructors and destructor included. Its methods borrow
what the C interface passes by pointer: a text is a `&str`, a buffer is a slice, a
record is a reference. An operation that can fail answers with a `Result`. The
skeleton implements every trait on one empty struct.
-/

namespace Bindery.Rust

/-- The type of a value that is returned. -/
def valueType (ty : String) : Except Fault Ty := do
  match ← Abi.classify ty with
  | .handle _ => return .handle
  | .primitive p => return .primitive p
  | .qualified q => return .schema (← typeName q)
  | .string | .buffer _ => throw (.unsupported (ty ++ " cannot be returned by value"))

/-- A parameter as the methods of a trait see it. -/
def borrowedParam (ctx : Context) (p : Parameter) : Except Fault Binding := do
  let name ← chosenName p.name
  match ← Abi.classify p.type with
  | .string => return ⟨name, .reference false .str⟩
  | .buffer element =>
    return ⟨name, .reference p.effectiveTransfer.isMut (.slice (.primitive element))⟩
  | .handle _ => return ⟨name, .handle⟩
  | .primitive q => return ⟨name, .primitive q⟩
  | .qualified q =>
    let t := Ty.schema (← typeName q)
    match p.effectiveTransfer with
    | .value => return ⟨name, if ctx.isEnum q then t else .reference false t⟩
    | .ref => return ⟨name, .reference false t⟩
    | .refMut => return ⟨name, .reference true t⟩

/-- What a method of a trait answers. -/
def answer (m : Method) : Except Fault (Option Ty) := do
  match m.error, m.returnType? with
  | some e, some ty =>
    let error ← typeName e
    return some (.result (← valueType ty) (.schema error))
  | some e, none => return some (.result .unit (.schema (← typeName e)))
  | none, some ty => return some (← valueType ty)
  | none, none => return none

/-- The method of a trait. -/
def traitSignature (ctx : Context) (m : Method) : Except Fault Signature := do
  let name ← chosenName m.name
  let params ← m.parameters.mapM (borrowedParam ctx)
  return { name, hasSelf := true, params, answer := ← answer m }

/-- The identifier of the trait of an interface. -/
def traitName (i : Interface) : Except Fault String := chosenName (Naming.pascalCase i.name)

/-- A trait. -/
structure Trait where
  /-- The interface behind it. -/
  interface : Interface
  name : String
  /-- The operations and their signatures. -/
  methods : List (Operation × Signature)

namespace Trait

/-- The trait of an interface. -/
def ofInterface (ctx : Context) (i : Interface) : Except Fault Trait := do
  let name ← traitName i
  let methods ← i.operations.mapM fun op => do return (op, ← traitSignature ctx op.method)
  return { interface := i, name, methods }

/-- The definition. -/
def doc (t : Trait) : List Doc :=
  let description := t.interface.description.getD
    ("Operations of the `" ++ t.interface.name ++ "` interface.")
  under [docComment description] (braced [.text ("pub trait " ++ t.name)]
    (t.methods.map fun (op, s) =>
      under (op.method.description.map docComment).toList
        [.even Doc.step s.doc, .text ";"]))

/-- A body that is still to be written. -/
def placeholder (t : Trait) (op : Operation) : List Doc :=
  let message := "implement " ++ t.interface.name ++ "::" ++ op.method.name
  [.text "todo!(",
    .even Doc.step [.zero, .filled 0 [.text (literal message)], .stop (.soft 0) (-Doc.step) ""],
    .text ")"]

/-- The implementation, ready to be filled in. -/
def skeleton (t : Trait) : List Doc :=
  let head := [.text "impl", .even (-Doc.step) [.text (" " ++ t.name), .blank, .text "for Impl"]]
  braced head
    (t.methods.map fun (op, s) => braced s.doc [[.filled 0 (t.placeholder op)]])

end Trait

/-- The traits, interface by interface. -/
def traits (ctx : Context) : Except Fault (List Trait) := do
  let ts ← ctx.api.interfaces.mapM (Trait.ofInterface ctx)
  checkDefined (ts.flatMap fun t => t.methods.map (·.2.name))
  return ts

end Bindery.Rust
