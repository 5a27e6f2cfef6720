/-!
# Why an emitter gives up

A description that passed validation can still hold something that an emitter
cannot express. A `Fault` is the cause; which emitter met it is added by whoever
ran the emitter, and the wording is one function.
-/

namespace Bindery

/-- Why an emitter gives up. -/
inductive Fault where
  /-- A type that the schemas do not define. -/
  | missingType (name : String)
  /-- A type outside the lowering table. -/
  | unsupported (detail : String)
  /-- A combination that validation should have refused. -/
  | internal (detail : String)
  /-- The generated Rust is no Rust, as a name cannot stand where it is put. -/
  | unparsable
  /-- A name that is no identifier at all. -/
  | notAnIdentifier (name : String)
deriving DecidableEq, Repr

/-- A fault and the emitter that met it. -/
structure EmitError where
  emitter : String
  fault : Fault
deriving DecidableEq, Repr

/-- The wording of an emitter's failure. What a parser would say about generated
code is left out. -/
def EmitError.message (e : EmitError) : String :=
  e.emitter ++
    match e.fault with
    | .missingType name => ": FlatBuffers type " ++ name ++ " not found in resolved schemas"
    | .unsupported detail => ": unsupported: " ++ detail
    | .internal detail => ": internal error: " ++ detail
    | .unparsable => ": generated Rust does not parse"
    | .notAnIdentifier name => ": not an identifier: " ++ name

/-- Tags the fault of a result with an emitter. -/
def tagged {α : Type} (emitter : String) : Except Fault α → Except EmitError α :=
  Except.mapError (⟨emitter, ·⟩)

end Bindery
