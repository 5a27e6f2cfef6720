import Bindery.Emit.Swift
import Bindery.Proofs.Emission.Native

/-!
# The Swift binding

Swift takes records and enumerations as they are imported from C, so a function of the
binding needs nothing but the forms of its types. What can go wrong is an error type. It
becomes an enumeration with a case for codes that have none of their own, and for this
some value must do: `InternalError`, or the last one. An enumeration without values has
neither.

* `succeeds_emit_iff` — the binding is emitted exactly when every error type has a value.
-/

namespace Bindery.Swift

open Validate

variable {ctx : Context}

/-- **Every error type has a value.** -/
def CanExpress (ctx : Context) : Prop :=
  ∀ e d, e ∈ ctx.api.errorTypes → ctx.types.get? e = some d → d.values ≠ []

/-! ### Error enumerations -/

theorem succeeds_errorEnum_iff {e : String} {d : TypeDef} (hd : ctx.types.get? e = some d) :
    Succeeds (ErrorEnum.ofType ctx e) ↔ d.values ≠ [] := by
  -- a last value is found wherever there are values, whatever they are called
  have hsearch : ((d.values.find? (·.name == "InternalError")).or d.values.getLast?).isSome = true ↔
      d.values ≠ [] := by
    rw [Option.isSome_or, Bool.or_eq_true, List.find?_isSome, List.getLast?_isSome]
    constructor
    · rintro (⟨v, hv, -⟩ | hvalues)
      · exact List.ne_nil_of_mem hv
      · simpa using hvalues
    · intro hvalues
      exact .inr (by simpa using hvalues)
  unfold ErrorEnum.ofType Context.typeDef
  rw [hd, ← hsearch]
  simp only [bind, Except.bind, Option.orElse_eq_orElse, Option.orElse_eq_or]
  cases (d.values.find? (·.name == "InternalError")).or d.values.getLast? <;> simp

/-! ### Functions -/

theorem succeeds_lower {p : Parameter} {t : TypeRef} (ht : Abi.classify p.type = .ok t)
    (hpass : ctx.CanPass t) : Succeeds (lower ctx p) := by
  unfold lower
  rw [ht]
  cases t with
  | string | handle _ | primitive _ => exact ⟨_, rfl⟩
  | buffer element =>
    refine succeeds_ok.bind ?_
    rintro _ ⟨⟩
    cases hmut : p.effectiveTransfer.isMut <;> simp
  | qualified q =>
    obtain ⟨d, hd, -⟩ := hpass.exists_typeDef
    refine succeeds_ok.bind ?_
    rintro _ ⟨⟩
    refine Succeeds.bind (Context.succeeds_typeDef_iff.mpr ⟨d, hd⟩) fun d' _ => ?_
    -- Records and enums differ in their scopes only.
    cases d'.isRecord <;> cases p.effectiveTransfer <;> exact succeeds_pure

theorem succeeds_result {ty : String} {t : TypeRef} (ht : Abi.classify ty = .ok t)
    (hreturn : ctx.CanReturn t) : Succeeds (Result.ofText ty) := by
  unfold Result.ofText
  rw [ht]
  cases t with
  | string | buffer _ => exact hreturn.elim
  | handle _ | primitive _ | qualified _ => exact ⟨_, rfl⟩

/-- Every operation has a function, on a class or on its own. -/
theorem succeeds_function {op : Operation} (hm : ctx.Reads op.method) (isStatic : Bool) :
    Succeeds (Function.ofOperation ctx isStatic op) := by
  unfold Function.ofOperation
  refine Succeeds.bind ?_ fun lowered _ => ?_
  -- Static functions take all parameters, the others leave the handle to the object.
  · refine hm.succeeds_parameters (fun p t ht hpass => succeeds_lower ht hpass) ?_
    cases isStatic with
    | true => exact List.Subset.refl _
    | false => exact List.drop_subset 1 _
  · cases hreturns : op.method.returns with
    | none => exact ⟨_, rfl⟩
    | some r =>
      obtain ⟨t, ht, hreturn⟩ := hm.returns r hreturns
      obtain ⟨result, hresult⟩ := succeeds_result ht hreturn
      simp only [hresult]
      exact ⟨_, rfl⟩

/-! ### The file -/

section File

variable (valid : Conforms ctx.api (some ctx.types))

include valid

/-- Functions for some of the operations. -/
theorem succeeds_functions (keep : Operation → Bool) (isStatic : Bool) :
    Succeeds ((ctx.api.operations.filter keep).mapM (Function.ofOperation ctx isStatic)) := by
  rw [succeeds_mapM_iff]
  intro op hop
  exact succeeds_function (ctx.reads_of_mem_operations valid (List.mem_filter.mp hop).1) isStatic

theorem succeeds_errorEnums_iff :
    Succeeds (ctx.api.errorTypes.mapM (ErrorEnum.ofType ctx)) ↔ CanExpress ctx := by
  rw [succeeds_mapM_iff]
  constructor
  · intro h e d he hd
    exact (succeeds_errorEnum_iff hd).mp (h e he)
  · intro h e he
    obtain ⟨op, hop, herror⟩ := mem_errorTypes_iff.mp he
    have henum := (ctx.reads_of_mem_operations valid hop).error e herror
    obtain ⟨d, hd, -⟩ := Schema.isEnum_iff.mp henum
    exact (succeeds_errorEnum_iff hd).mpr (h e d he hd)

/-- **The Swift binding is emitted exactly when every error type has a value.** -/
theorem succeeds_emit_iff : Succeeds (Swift.emit ctx) ↔ CanExpress ctx := by
  -- Classes always succeed, so the enums of errors decide.
  have hclasses : Succeeds (ctx.api.handles.mapM (HandleClass.ofHandle ctx)) := by
    rw [succeeds_mapM_iff]
    intro h _
    unfold HandleClass.ofHandle
    refine (succeeds_functions valid _ true).bind fun makers _ => ?_
    rw [succeeds_bind_pure_iff]
    exact succeeds_functions valid _ false
  unfold Swift.emit Source.ofContext
  rw [succeeds_bind_pure_iff, ← succeeds_errorEnums_iff valid, succeeds_bind_iff (P := True),
    and_true]
  intro errors _
  refine iff_of_true (hclasses.bind fun classes _ => ?_) trivial
  rw [succeeds_bind_pure_iff]
  exact succeeds_functions valid _ true

end File

end Bindery.Swift
