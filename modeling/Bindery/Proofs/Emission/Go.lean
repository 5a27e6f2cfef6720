import Bindery.Emit.Go
import Bindery.Proofs.Emission.Native
import Bindery.Proofs.Wasm.Convention

/-!
# The Go skeleton

A method with a handle in front is dispatched: the handle is looked up, and if there is
nothing behind it the function leaves early. With an error type it leaves with a failure
value, so such a value must exist. Constructors, destructors and methods without a handle
in front never leave early, and whatever else they need a valid description has.

* `succeeds_cgoDispatch_iff` — the body of a dispatched method;
* `succeeds_emit_iff` — the skeleton is emitted exactly when the error types of all
  dispatched methods can report a failure.
-/

namespace Bindery.Go

open Validate

variable {ctx : Context}

/-- **Every method that is dispatched can report its failure.** -/
def CanDispatch (ctx : Context) : Prop :=
  ∀ i ∈ ctx.api.interfaces, ∀ m ∈ dispatched i, ctx.Reports m

/-- An operation is dispatched if it is a method with a handle in front. -/
def IsDispatched (op : Operation) : Prop :=
  op.kind = .method ∧ op.method.leadingHandle?.isSome = true

/-! ### The types of a method -/

theorem succeeds_paramType {p : Parameter} {t : TypeRef} (ht : Abi.classify p.type = .ok t) :
    Succeeds (paramType p) := by
  unfold paramType
  rw [ht]
  cases t <;> exact ⟨_, rfl⟩

theorem succeeds_returnType {ty : String} {t : TypeRef} (ht : Abi.classify ty = .ok t)
    (hreturn : ctx.CanReturn t) : Succeeds (returnType ty) := by
  unfold returnType
  rw [ht]
  cases t with
  | string | buffer _ => exact hreturn.elim
  | handle _ | primitive _ | qualified _ => exact ⟨_, rfl⟩

theorem succeeds_zero {ty : String} {t : TypeRef} (ht : Abi.classify ty = .ok t) :
    Succeeds (zero ctx ty) := by
  unfold zero
  rw [ht]
  cases t with
  | primitive p => cases p <;> exact ⟨_, rfl⟩
  | string | buffer _ | handle _ | qualified _ => exact ⟨_, rfl⟩

theorem succeeds_cZero {ty : String} {t : TypeRef} (ht : Abi.classify ty = .ok t) :
    Succeeds (cZero ctx ty) := by
  unfold cZero
  rw [ht]
  cases t with
  | primitive p => cases p <;> exact ⟨_, rfl⟩
  | string | buffer _ | handle _ | qualified _ => exact ⟨_, rfl⟩

/-- A schema type that can be passed has a value in Go. -/
theorem exists_ofName? {q : String} (h : ctx.CanPass (.qualified q)) :
    ∃ v, Value.ofName? ctx.types q = some v := by
  rw [Value.ofName?_eq]
  by_cases henum : ctx.types.isEnum q = true
  · exact ⟨_, if_pos henum⟩
  · rw [if_neg henum, if_pos (h.resolve_left henum)]
    exact ⟨_, rfl⟩

theorem succeeds_ofName {q : String} (h : ctx.CanPass (.qualified q)) :
    Succeeds (Value.ofName ctx.types q) := by
  obtain ⟨v, hv⟩ := exists_ofName? h
  unfold Value.ofName
  rw [hv]
  exact succeeds_ok

/-! ### Interfaces and implementations -/

theorem succeeds_methodSig {m : Method} (hm : ctx.Reads m) : Succeeds (MethodSig.ofMethod m) := by
  obtain ⟨params, hparams⟩ :
      Succeeds ((m.parameters.drop 1).mapM fun p => do return (argName p, ← paramType p)) := by
    refine hm.succeeds_parameters (fun p t ht _ => ?_) (List.drop_subset 1 _)
    rw [succeeds_bind_pure_iff]
    exact succeeds_paramType ht
  unfold MethodSig.ofMethod
  simp only [hparams]
  -- By whether something is returned; the error type changes the form of the result and not
  -- whether there is one.
  cases hreturns : m.returns with
  | none => cases m.error <;> exact ⟨_, rfl⟩
  | some r =>
    obtain ⟨t, ht, hreturn⟩ := hm.returns r hreturns
    obtain ⟨result, hresult⟩ := succeeds_returnType ht hreturn
    cases m.error with
    | none => simp only [hresult]; exact ⟨_, rfl⟩
    | some e => simp only [hresult]; exact ⟨_, rfl⟩

theorem succeeds_returnOf {m : Method} (hm : ctx.Reads m) :
    Succeeds (HandleImpl.returnOf ctx m) := by
  unfold HandleImpl.returnOf
  cases hreturns : m.returns with
  | none => cases m.error <;> exact succeeds_ok
  | some r =>
    obtain ⟨t, ht, -⟩ := hm.returns r hreturns
    cases m.error with
    | none =>
      rw [succeeds_bind_pure_iff]
      exact succeeds_zero ht
    | some e =>
      rw [succeeds_bind_pure_iff]
      exact succeeds_zero ht

section Package

variable (valid : Conforms ctx.api (some ctx.types))

include valid

theorem reads_of_dispatched {i : Interface} (hi : i ∈ ctx.api.interfaces) {m : Method}
    (hm : m ∈ dispatched i) : ctx.Reads m :=
  ctx.reads_of_method valid hi (List.mem_filter.mp hm).1

theorem succeeds_interfaceDecls : Succeeds (interfaceDecls ctx.api) := by
  unfold interfaceDecls
  rw [succeeds_mapM_iff]
  intro i hi
  unfold InterfaceDecl.ofInterface
  rw [succeeds_bind_pure_iff, succeeds_mapM_iff]
  intro m hm
  exact succeeds_methodSig (reads_of_dispatched valid (List.mem_filter.mp hi).1 hm)

theorem succeeds_handleImpl (handle : String) : Succeeds (HandleImpl.ofHandle ctx handle) := by
  unfold HandleImpl.ofHandle
  rw [succeeds_bind_pure_iff, succeeds_mapM_iff]
  intro m hm
  obtain ⟨i, hi, hm⟩ := List.mem_flatMap.mp hm
  have hreads := reads_of_dispatched valid (List.mem_filter.mp hi).1 hm
  refine (succeeds_methodSig hreads).bind fun s _ => ?_
  rw [succeeds_bind_pure_iff]
  exact succeeds_returnOf hreads

end Package

/-! ### Bodies -/

theorem succeeds_failureCode_iff {m : Method} :
    Succeeds (failureCode ctx m) ↔ ctx.Reports m := by
  unfold failureCode
  cases herror : m.error with
  | some e => simp [Context.succeeds_failureValue_iff, Context.reports_of_error herror]
  | none => simp [Context.reports_of_none herror]

theorem succeeds_constructedStruct {m : Method} {handle : String}
    (h : m.returnedHandle? = some handle) : Succeeds (constructedStruct m) := by
  unfold constructedStruct
  rw [h]
  exact succeeds_ok

theorem succeeds_cgoConstructor {m : Method} {handle : String}
    (h : m.returnedHandle? = some handle) : Succeeds (cgoConstructor m) := by
  unfold cgoConstructor
  rw [h]
  rw [succeeds_bind_pure_iff]
  exact succeeds_constructedStruct h

theorem succeeds_cgoStub {m : Method} (hm : ctx.Reads m) : Succeeds (cgoStub ctx m) := by
  unfold cgoStub
  cases m.error with
  | some e => exact succeeds_ok
  | none =>
    cases hreturns : m.returns with
    | none => exact succeeds_ok
    | some r =>
      obtain ⟨t, ht, -⟩ := hm.returns r hreturns
      rw [succeeds_bind_pure_iff]
      exact succeeds_cZero ht

/-- **Leaving early needs a failure value.** -/
theorem succeeds_cgoBail_iff {m : Method} (hm : ctx.Reads m) :
    Succeeds (cgoBail ctx m) ↔ ctx.Reports m := by
  unfold cgoBail
  cases herror : m.error with
  -- With an error type the way out needs its failure; without one it always exists.
  | some e => rw [succeeds_bind_pure_iff, succeeds_failureCode_iff]
  | none =>
    refine iff_of_true ?_ (Context.reports_of_none herror)
    cases hreturns : m.returns with
    | none => exact succeeds_ok
    | some r =>
      obtain ⟨t, ht, -⟩ := hm.returns r hreturns
      rw [succeeds_bind_pure_iff]
      exact succeeds_cZero ht

theorem succeeds_cgoPass {p : Parameter} {t : TypeRef} (ht : Abi.classify p.type = .ok t)
    (hpass : ctx.CanPass t) : Succeeds (cgoPass ctx p) := by
  unfold cgoPass
  rw [ht]
  cases t with
  | string | buffer _ | handle _ | primitive _ => exact ⟨_, rfl⟩
  | qualified q =>
    obtain ⟨v, hv⟩ := succeeds_ofName hpass
    refine succeeds_ok.bind ?_
    rintro _ ⟨⟩
    simp only [hv]
    cases p.effectiveTransfer with
    -- Only records that are changed in place are passed on differently.
    | value | ref => exact ⟨_, rfl⟩
    | refMut => cases v <;> exact ⟨_, rfl⟩

theorem succeeds_cgoStore {ty : String} {t : TypeRef} (ht : Abi.classify ty = .ok t)
    (hreturn : ctx.CanReturn t) : Succeeds (cgoStore ctx ty) := by
  obtain ⟨v, hv⟩ := Cpp.succeeds_valueType ht hreturn
  unfold cgoStore
  simp only [hv, ht]
  cases t <;> exact ⟨_, rfl⟩

theorem succeeds_cgoReturn {ty : String} {t : TypeRef} (ht : Abi.classify ty = .ok t)
    (hreturn : ctx.CanReturn t) : Succeeds (cgoReturn ctx ty) := by
  obtain ⟨v, hv⟩ := Cpp.succeeds_valueType ht hreturn
  unfold cgoReturn
  simp only [hv, ht]
  cases t <;> exact ⟨_, rfl⟩

/-- **A method is dispatched exactly when its failure can be reported.** -/
theorem succeeds_cgoDispatch_iff {op : Operation} (hm : ctx.Reads op.method) :
    Succeeds (cgoDispatch ctx op) ↔ ctx.Reports op.method := by
  unfold cgoDispatch
  constructor
  · rintro ⟨body, hbody⟩
    obtain ⟨bail, hbail, -⟩ := bind_eq_ok_iff.mp hbody
    exact (succeeds_cgoBail_iff hm).mp ⟨bail, hbail⟩
  · intro hreports
    -- The way out and the code of a failure are all that a missing error value takes away.
    obtain ⟨bail, hbail⟩ := (succeeds_cgoBail_iff hm).mpr hreports
    obtain ⟨fallback, hfallback⟩ := succeeds_failureCode_iff.mpr hreports
    obtain ⟨passed, hpassed⟩ : Succeeds ((op.method.parameters.drop 1).mapM (cgoPass ctx)) :=
      hm.succeeds_parameters (fun p t ht hpass => succeeds_cgoPass ht hpass) (List.drop_subset 1 _)
    simp only [hbail, hpassed, hfallback]
    cases hreturns : op.method.returns with
    | none => cases op.method.error <;> exact ⟨_, rfl⟩
    | some r =>
      obtain ⟨t, ht, hreturn⟩ := hm.returns r hreturns
      cases op.method.error with
      | some e =>
        obtain ⟨store, hstore⟩ := succeeds_cgoStore ht hreturn
        simp only [hstore]
        exact ⟨_, rfl⟩
      | none =>
        obtain ⟨last, hlast⟩ := succeeds_cgoReturn ht hreturn
        simp only [hlast]
        exact ⟨_, rfl⟩

/-! ### Exported functions -/

theorem succeeds_cgoLower {p : Parameter} {t : TypeRef} (ht : Abi.classify p.type = .ok t) :
    Succeeds (CgoParam.lower p) := by
  unfold CgoParam.lower
  rw [ht]
  cases t with
  | qualified q => cases p.effectiveTransfer <;> exact ⟨_, rfl⟩
  | string | buffer _ | handle _ | primitive _ => exact ⟨_, rfl⟩

theorem succeeds_cgoInterface {m : Method} (hm : ctx.Reads m) :
    Succeeds (CgoExport.interface m) := by
  obtain ⟨chunks, hchunks⟩ : Succeeds (m.parameters.mapM CgoParam.lower) :=
    hm.succeeds_parameters (fun p t ht _ => succeeds_cgoLower ht) (List.Subset.refl _)
  unfold CgoExport.interface
  simp only [hchunks]
  cases hreturns : m.returns with
  | none => cases m.error <;> exact ⟨_, rfl⟩
  | some r =>
    obtain ⟨t, ht, hreturn⟩ := hm.returns r hreturns
    obtain ⟨v, hv⟩ := Cpp.succeeds_valueType ht hreturn
    cases m.error with
    | none => simp only [hv]; exact ⟨_, rfl⟩
    | some e => simp only [hv]; exact ⟨_, rfl⟩

section Skeleton

variable (valid : Conforms ctx.api (some ctx.types))

include valid

/-- One exported function. -/
theorem succeeds_cgoExport_iff {i : Interface} (hi : i ∈ ctx.api.interfaces) {op : Operation}
    (hop : op ∈ i.operations) :
    Succeeds (CgoExport.ofOperation ctx op) ↔ (IsDispatched op → ctx.Reports op.method) := by
  have hm := ctx.reads_of_interface valid hi hop
  unfold CgoExport.ofOperation
  refine succeeds_bind_iff_right (succeeds_cgoInterface hm) fun signature _ => ?_
  -- Constructors always have a handle to make and destructors a fixed body, so dispatching is
  -- what is left.
  rcases mem_operations_iff.mp hop with ⟨c, hc, rfl⟩ | ⟨handle, -, rfl⟩ | ⟨m, -, rfl⟩
  · obtain ⟨⟨handle, hhandle⟩, -⟩ := ctx.exists_of_constructor valid hi hc
    refine iff_of_true ?_ nofun
    rw [succeeds_bind_pure_iff]
    exact succeeds_cgoConstructor hhandle
  · exact iff_of_true ⟨_, rfl⟩ nofun
  · by_cases hleading : m.leadingHandle?.isSome = true
    · simp only [if_pos hleading]
      rw [succeeds_bind_pure_iff, succeeds_cgoDispatch_iff hm]
      exact ⟨fun h _ => h, fun h => h ⟨rfl, hleading⟩⟩
    · simp only [if_neg hleading]
      rw [succeeds_bind_pure_iff]
      exact iff_of_true (succeeds_cgoStub hm) fun h => absurd h.2 hleading

omit valid in
/-- The operations that are dispatched are the methods that are. -/
theorem forall_isDispatched_iff {P : Method → Prop} :
    (∀ i ∈ ctx.api.interfaces, ∀ op ∈ i.operations, IsDispatched op → P op.method) ↔
      ∀ i ∈ ctx.api.interfaces, ∀ m ∈ dispatched i, P m := by
  constructor
  · intro h i hi m hm
    obtain ⟨hm, hleading⟩ := List.mem_filter.mp hm
    exact h i hi ⟨i, .method, m⟩ (mem_operations_iff.mpr (.inr (.inr ⟨m, hm, rfl⟩))) ⟨rfl, hleading⟩
  · rintro h i hi op hop ⟨hkind, hleading⟩
    rcases mem_operations_iff.mp hop with ⟨c, -, rfl⟩ | ⟨handle, -, rfl⟩ | ⟨m, hm, rfl⟩
    · cases hkind
    · cases hkind
    · exact h i hi m (List.mem_filter.mpr ⟨hm, hleading⟩)

theorem succeeds_cgoExports_iff : Succeeds (cgoExports ctx) ↔ CanDispatch ctx := by
  unfold cgoExports CanDispatch
  rw [← forall_isDispatched_iff]
  simp only [succeeds_bind_pure_iff, succeeds_mapM_iff]
  exact forall₂_congr fun i hi => forall₂_congr fun op hop => succeeds_cgoExport_iff valid hi hop

/-- **The Go skeleton is emitted exactly when all dispatched methods can report their
failure.** -/
theorem succeeds_emit_iff : Succeeds (Go.emit ctx) ↔ CanDispatch ctx := by
  unfold Go.emit
  refine succeeds_bind_iff_right (succeeds_interfaceDecls valid) fun decls _ => ?_
  rw [← succeeds_cgoExports_iff valid, succeeds_bind_iff (P := True), and_true]
  intro exports _
  refine iff_of_true ?_ trivial
  rw [succeeds_bind_pure_iff, succeeds_mapM_iff]
  intro h _
  exact succeeds_handleImpl valid h.name

end Skeleton

end Bindery.Go
