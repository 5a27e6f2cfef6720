import Bindery.Emit.Build
import Bindery.Emit.Cpp
import Bindery.Emit.Header
import Bindery.Proofs.Emission.Basic

/-!
# The C interface and its implementations in C and C++

The header declares what the signatures say, and every operation of a valid description
has one, so the header is always emitted (`Header.succeeds_emit`). The two skeletons also
write bodies. A body that has nothing to say reports a failure, and for that it needs a
value that means one:

* `Build.succeeds_emitC_iff` — a stub in C reports the failure of its operation, so every
  error type must have a failure value;
* `Cpp.succeeds_emit_iff` — the shim in C++ reports only that no instance was made, so the
  error types of constructors must have one.
-/

namespace Bindery

open Validate

/-! ### Error types -/

/-- The error types of a description are those of its operations. -/
theorem mem_errorTypes_iff {a : Api} {e : String} :
    e ∈ a.errorTypes ↔ ∃ op ∈ a.operations, op.method.error = some e := by
  rw [Api.errorTypes, Text.mem_distinct_iff, List.mem_filterMap]
  constructor
  · rintro ⟨m, hm, he⟩
    obtain ⟨i, hi, hm⟩ := List.mem_flatMap.mp hm
    rcases List.mem_append.mp hm with hm | hm
    · exact ⟨⟨i, .constructor, m⟩,
        mem_operations_of_mem hi (mem_operations_iff.mpr (.inl ⟨m, hm, rfl⟩)), he⟩
    · exact ⟨⟨i, .method, m⟩,
        mem_operations_of_mem hi (mem_operations_iff.mpr (.inr (.inr ⟨m, hm, rfl⟩))), he⟩
  · rintro ⟨op, hop, he⟩
    obtain ⟨i, hi, hop⟩ := List.mem_flatMap.mp hop
    rcases mem_operations_iff.mp hop with ⟨c, hc, rfl⟩ | ⟨handle, -, rfl⟩ | ⟨m, hm, rfl⟩
    · exact ⟨c, List.mem_flatMap.mpr ⟨i, hi, List.mem_append_left _ hc⟩, he⟩
    · -- a destructor cannot fail
      cases he
    · exact ⟨m, List.mem_flatMap.mpr ⟨i, hi, List.mem_append_right _ hm⟩, he⟩

/-! ### The header -/

section Header

variable {ctx : Context} {known : Option Schema} (valid : Conforms ctx.api known)

include valid

theorem succeeds_signature {i : Interface} (hi : i ∈ ctx.api.interfaces) {op : Operation}
    (hop : op ∈ i.operations) : Succeeds (Abi.Signature.ofOperation ctx.apiName op) :=
  Abi.exists_signature valid (mem_operations_of_mem hi hop)

/-- **The header of a valid description is always emitted**, whatever the schema holds. -/
theorem Header.succeeds_emit : Succeeds (Header.emit ctx) := by
  unfold Header.emit Header.header
  simp only [succeeds_bind_pure_iff]
  rw [succeeds_mapM_iff]
  intro i hi
  unfold Header.interfaceLines Header.signatures
  rw [succeeds_bind_pure_iff, succeeds_mapM_iff]
  intro op hop
  exact succeeds_signature valid hi hop

end Header

/-! ### Stubs in C -/

variable {ctx : Context} (valid : Conforms ctx.api (some ctx.types))

include valid

omit valid in
/-- A stub needs a failure value exactly when its operation can fail. -/
theorem Build.succeeds_stubReturn_iff {m : Method} (hm : ctx.Reads m) (s : Abi.Signature) :
    Succeeds (Build.stubReturn ctx m s) ↔ ctx.Reports m := by
  unfold Build.stubReturn
  cases herror : m.error with
  | some e => simp [Context.succeeds_failureConstant_iff, Context.reports_of_error herror]
  | none =>
    -- Only an error type can be without a value to report.
    refine iff_of_true ?_ (Context.reports_of_none herror)
    cases hreturns : m.returns with
    | none => exact succeeds_ok
    | some r =>
      obtain ⟨t, ht, -⟩ := hm.returns r hreturns
      simp only [ht]
      cases t <;> exact ⟨_, rfl⟩

/-- **Stubs in C are emitted exactly when every error type can report a failure.** -/
theorem Build.succeeds_emitC_iff :
    Succeeds (Build.emitC ctx) ↔ ∀ e ∈ ctx.api.errorTypes, ctx.types.HasFailure e := by
  -- A stub fails only for want of a value to report, which its error type decides.
  have hstub : ∀ i ∈ ctx.api.interfaces, ∀ op ∈ i.operations,
      (Succeeds (Build.stubLines ctx op) ↔ ctx.Reports op.method) := by
    intro i hi op hop
    have hreads := ctx.reads_of_interface valid hi hop
    unfold Build.stubLines
    refine succeeds_bind_iff_right (succeeds_signature valid hi hop) fun s _ => ?_
    rw [succeeds_bind_pure_iff, Build.succeeds_stubReturn_iff hreads]
  unfold Build.emitC Build.cStubs
  simp only [succeeds_bind_pure_iff, succeeds_mapM_iff]
  constructor
  · intro h e he
    obtain ⟨op, hop, he⟩ := mem_errorTypes_iff.mp he
    obtain ⟨i, hi, hop⟩ := List.mem_flatMap.mp hop
    exact (hstub i hi op hop).mp (h i hi op hop) e he
  · intro h i hi op hop
    refine (hstub i hi op hop).mpr fun e he => h e (mem_errorTypes_iff.mpr ?_)
    exact ⟨op, mem_operations_of_mem hi hop, he⟩

/-! ### The C++ skeleton -/

namespace Cpp

omit valid

theorem succeeds_paramType {p : Parameter} {t : TypeRef} (ht : Abi.classify p.type = .ok t) :
    Succeeds (paramType ctx p) := by
  unfold paramType
  rw [ht]
  cases t with
  | qualified q => cases p.effectiveTransfer <;> exact ⟨_, rfl⟩
  | string | buffer _ | handle _ | primitive _ => exact ⟨_, rfl⟩

theorem succeeds_argument {p : Parameter} {t : TypeRef} (ht : Abi.classify p.type = .ok t) :
    Succeeds (argument p) := by
  unfold argument
  rw [ht]
  cases t <;> exact ⟨_, rfl⟩

/-- A type that can be returned is the type of a value. -/
theorem succeeds_valueType {ty : String} {t : TypeRef} (ht : Abi.classify ty = .ok t)
    (hreturn : ctx.CanReturn t) : Succeeds (Abi.ValueType.ofText ty) := by
  unfold Abi.ValueType.ofText
  rw [classify_eq_ok_iff.mp ht]
  cases t with
  | string | buffer _ => exact hreturn.elim
  | handle _ | primitive _ | qualified _ => exact succeeds_ok

/-- Every method has a virtual function. -/
theorem succeeds_virtual {m : Method} (hm : ctx.Reads m) (i : Interface) :
    Succeeds (Virtual.ofMethod ctx i m) := by
  obtain ⟨params, hparams⟩ :
      Succeeds (m.parameters.mapM fun p => do return (← paramType ctx p, p.name)) := by
    refine hm.succeeds_parameters (fun p t ht _ => ?_) (List.Subset.refl _)
    rw [succeeds_bind_pure_iff]
    exact succeeds_paramType ht
  unfold Virtual.ofMethod
  simp only [hparams]
  cases hreturns : m.returns with
  | none => cases m.error <;> exact ⟨_, rfl⟩
  | some r =>
    -- the result is the answer, or it is what the trailing pointer points to
    obtain ⟨t, ht, hreturn⟩ := hm.returns r hreturns
    obtain ⟨v, hv⟩ := succeeds_valueType ht hreturn
    cases m.error with
    | none => simp only [hv]; exact ⟨_, rfl⟩
    | some e => simp only [hv]; exact ⟨_, rfl⟩

/-- A constructor in C++ needs the failure value of its error type. -/
theorem succeeds_failureText_iff {m : Method} :
    Succeeds (failureText ctx m) ↔ ctx.Reports m := by
  unfold failureText
  cases herror : m.error with
  | some e => simp [Context.succeeds_failureConstant_iff, Context.reports_of_error herror]
  | none => simp [Context.reports_of_none herror]

/-- The body of a constructor. -/
theorem succeeds_shimBody_constructor_iff {i : Interface} {c : Method} {handle : String}
    (hhandle : c.returnedHandle? = some handle) :
    Succeeds (shimBody ctx ⟨i, .constructor, c⟩) ↔ ctx.Reports c := by
  unfold shimBody
  simp only [hhandle]
  rw [succeeds_bind_pure_iff, succeeds_failureText_iff]

/-- The body of a method forwards its arguments. -/
theorem succeeds_shimBody_method {i : Interface} {m : Method} (hm : ctx.Reads m) :
    Succeeds (shimBody ctx ⟨i, .method, m⟩) := by
  unfold shimBody
  refine Succeeds.bind ?_ fun args _ => succeeds_pure
  exact hm.succeeds_parameters (fun p t ht _ => succeeds_argument ht) (List.Subset.refl _)

include valid

/-- One function of the shim. -/
theorem succeeds_shimFunction_iff {i : Interface} (hi : i ∈ ctx.api.interfaces) {op : Operation}
    (hop : op ∈ i.operations) :
    Succeeds (shimFunction ctx op) ↔ (op.kind = .constructor → ctx.Reports op.method) := by
  unfold shimFunction
  refine succeeds_bind_iff_right (succeeds_signature valid hi hop) fun s _ => ?_
  rw [succeeds_bind_pure_iff]
  rcases mem_operations_iff.mp hop with ⟨c, hc, rfl⟩ | ⟨handle, -, rfl⟩ | ⟨m, hm, rfl⟩
  · obtain ⟨⟨handle, hhandle⟩, -⟩ := ctx.exists_of_constructor valid hi hc
    rw [succeeds_shimBody_constructor_iff hhandle]
    exact ⟨fun h _ => h, fun h => h rfl⟩
  · exact iff_of_true ⟨_, rfl⟩ nofun
  · exact iff_of_true (succeeds_shimBody_method (ctx.reads_of_method valid hi hm)) nofun

/-- **The C++ skeleton is emitted exactly when the error types of constructors can report a
failure.** -/
theorem succeeds_emit_iff :
    Succeeds (Cpp.emit ctx) ↔
      ∀ i ∈ ctx.api.interfaces, ∀ c ∈ i.constructors, ctx.Reports c := by
  -- methods are written for every valid description
  have hvirtuals : Succeeds (virtuals ctx) := by
    unfold virtuals
    rw [succeeds_mapM_iff]
    intro i hi
    rw [succeeds_bind_pure_iff, succeeds_mapM_iff]
    intro m hm
    exact succeeds_virtual (ctx.reads_of_method valid hi hm) i
  unfold Cpp.emit
  refine succeeds_bind_iff_right hvirtuals fun vs _ => ?_
  unfold shim
  simp only [succeeds_bind_pure_iff, succeeds_mapM_iff]
  constructor
  · intro h i hi c hc
    have hop : (⟨i, .constructor, c⟩ : Operation) ∈ i.operations :=
      mem_operations_iff.mpr (.inl ⟨c, hc, rfl⟩)
    exact (succeeds_shimFunction_iff valid hi hop).mp (h i hi _ hop) rfl
  · intro h i hi op hop
    refine (succeeds_shimFunction_iff valid hi hop).mpr fun hkind => ?_
    -- only constructors have to report anything
    rcases mem_operations_iff.mp hop with ⟨c, hc, rfl⟩ | ⟨handle, -, rfl⟩ | ⟨m, hm, rfl⟩
    · exact h i hi c hc
    · cases hkind
    · cases hkind

end Cpp

end Bindery
