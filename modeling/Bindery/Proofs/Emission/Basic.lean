import Bindery.Emit.Context
import Bindery.Proofs.Operations
import Bindery.Proofs.Schema

/-!
# What a valid description gives an emitter

An emitter reads a description type by type. Each type is a text, and reading it may
fail; so may looking up a name in the schema. In a valid description neither does, and
this module says so once for all emitters:

* `reads_of_mem_operations` — every type of every operation has a form, the form is one
  that can stand there (`CanPass`, `CanReturn`), and every error type is an enumeration;
* `Reads.succeeds_parameters` — hence a step for each parameter of an operation succeeds if
  it does for every form;
* `exists_of_constructor` — a constructor returns a handle and can fail.

What validity does not give is a value that can report a failure. An error type may be
an enumeration in which every value means success, and then an emitter that needs such a
value gives up (`succeeds_failureValue_iff`).
-/

namespace Bindery

open Validate

/-! ### Failure values -/

/-- **The enumeration can report a failure.** A value is called `InternalError` or is not
zero. -/
def Schema.HasFailure (types : Schema) (errorType : String) : Prop :=
  ∃ d, types.get? errorType = some d ∧ ∃ v ∈ d.values, v.name = "InternalError" ∨ v.value ≠ 0

namespace Context

variable {ctx : Context}

theorem succeeds_typeDef_iff {name : String} :
    Succeeds (ctx.typeDef name) ↔ ∃ d, ctx.types.get? name = some d := by
  unfold typeDef
  cases ctx.types.get? name <;> simp

/-- **A failure value is found exactly when there is one.** -/
theorem succeeds_failureValue_iff {errorType : String} :
    Succeeds (ctx.failureValue errorType) ↔ ctx.types.HasFailure errorType := by
  unfold failureValue typeDef Schema.HasFailure
  cases hd : ctx.types.get? errorType with
  | none => simp [bind, Except.bind]
  | some d =>
    -- one search after the other finds a value exactly when some value is fit for either
    have hsearch : ((d.values.find? (·.name == "InternalError")).or
        (d.values.find? (·.value ≠ 0))).isSome = true ↔
        ∃ v ∈ d.values, v.name = "InternalError" ∨ v.value ≠ 0 := by
      rw [Option.isSome_or, Bool.or_eq_true, List.find?_isSome, List.find?_isSome]
      simp only [beq_iff_eq, decide_eq_true_eq, ← exists_or, ← and_or_left]
    simp only [Option.some.injEq, exists_eq_left', ← hsearch]
    simp only [bind, Except.bind, Option.orElse_eq_orElse, Option.orElse_eq_or]
    cases (d.values.find? (·.name == "InternalError")).or (d.values.find? (·.value ≠ 0)) <;> simp

theorem succeeds_failureConstant_iff {errorType : String} :
    Succeeds (ctx.failureConstant errorType) ↔ ctx.types.HasFailure errorType := by
  unfold failureConstant
  rw [succeeds_bind_pure_iff, succeeds_failureValue_iff]

/-- **The failure of a method can be reported.** A method that cannot fail has none. -/
def Reports (ctx : Context) (m : Method) : Prop :=
  ∀ e, m.error = some e → ctx.types.HasFailure e

theorem reports_of_error {m : Method} {e : String} (h : m.error = some e) :
    ctx.Reports m ↔ ctx.types.HasFailure e := by
  unfold Reports
  simp [h]

theorem reports_of_none {m : Method} (h : m.error = none) : ctx.Reports m := by
  intro e he
  rw [h] at he
  cases he

/-! ### Types that have a form -/

/-- The forms that an emitter can pass: a schema type is an enumeration or a record. -/
def CanPass (ctx : Context) : TypeRef → Prop
  | .qualified q => ctx.types.isEnum q = true ∨ ctx.types.isRecord q = true
  | .string | .buffer _ | .handle _ | .primitive _ => True

/-- The forms that an emitter can return: neither a text nor a buffer. -/
def CanReturn (ctx : Context) : TypeRef → Prop
  | .string | .buffer _ => False
  | .qualified q => ctx.CanPass (.qualified q)
  | .handle _ | .primitive _ => True

theorem CanReturn.canPass {t : TypeRef} (h : ctx.CanReturn t) : ctx.CanPass t := by
  cases t with
  | string | buffer _ => exact h.elim
  | handle _ | primitive _ => trivial
  | qualified q => exact h

/-- A name that can be passed has a definition. -/
theorem CanPass.exists_typeDef {q : String} (h : ctx.CanPass (.qualified q)) :
    ∃ d, ctx.types.get? q = some d ∧ (d.isEnum = true ∨ d.isRecord = true) := by
  rcases h with henum | hrecord
  · obtain ⟨d, hd, hkind⟩ := Schema.isEnum_iff.mp henum
    exact ⟨d, hd, .inl hkind⟩
  · obtain ⟨d, hd, hkind⟩ := Schema.isRecord_iff.mp hrecord
    exact ⟨d, hd, .inr hkind⟩

/-- **The types of a method as an emitter reads them.** -/
structure Reads (ctx : Context) (m : Method) : Prop where
  parameters : ∀ p ∈ m.parameters, ∃ t, Abi.classify p.type = .ok t ∧ ctx.CanPass t
  returns : ∀ r, m.returns = some r → ∃ t, Abi.classify r.type = .ok t ∧ ctx.CanReturn t
  error : ∀ e, m.error = some e → ctx.types.isEnum e = true

/-- **A step for parameters of a method** succeeds if it does for every form that can be
passed. -/
theorem Reads.succeeds_parameters {α : Type} {m : Method} {f : Parameter → Except Fault α}
    (hm : ctx.Reads m)
    (h : ∀ p t, Abi.classify p.type = .ok t → ctx.CanPass t → Succeeds (f p))
    {ps : List Parameter} (hsub : ps ⊆ m.parameters) : Succeeds (ps.mapM f) := by
  rw [succeeds_mapM_iff]
  intro p hp
  obtain ⟨t, ht, hpass⟩ := hm.parameters p (hsub hp)
  exact h p t ht hpass

/-- A definition that is no union is an enumeration or a record. -/
theorem canPass_of_knows {q : String}
    (h : (scopeOf ctx.api (some ctx.types)).Knows (fun d => d.kind ≠ .union) q) :
    ctx.CanPass (.qualified q) := by
  obtain ⟨d, hd, hkind⟩ := h ctx.types rfl
  have hcases : d.isEnum = true ∨ d.isRecord = true := by
    cases hk : d.kind <;> simp_all [TypeDef.isEnum, TypeDef.isRecord]
  exact hcases.imp (fun h => Schema.isEnum_iff.mpr ⟨d, hd, h⟩)
    fun h => Schema.isRecord_iff.mpr ⟨d, hd, h⟩

theorem canPass_of_admits {t : TypeRef} (h : (scopeOf ctx.api (some ctx.types)).Admits t) :
    ctx.CanPass t := by
  cases t with
  | string | buffer _ | handle _ | primitive _ => trivial
  | qualified q => exact canPass_of_knows h

theorem canReturn_of_yields {t : TypeRef} (h : (scopeOf ctx.api (some ctx.types)).Yields t) :
    ctx.CanReturn t := by
  cases t with
  | string | buffer _ => exact h
  | handle _ | primitive _ => trivial
  | qualified q => exact canPass_of_knows h

/-- A method that obeys the rules can be read. -/
theorem reads_of_methodOk {m : Method}
    (hs : NamedInPascalCase (scopeOf ctx.api (some ctx.types)))
    (h : (scopeOf ctx.api (some ctx.types)).MethodOk m) : ctx.Reads m where
  -- Each part of the method that conforms has a type that the lowering reads.
  parameters := by
    intro p hp
    obtain ⟨t, ht, hadmits⟩ := (h.parameters p hp).exists_typeRef hs
    exact ⟨t, classify_eq_ok_iff.mpr ht, canPass_of_admits hadmits⟩
  returns := by
    intro r hr
    obtain ⟨t, ht, hyields⟩ := (h.returns r hr).exists_typeRef hs
    exact ⟨t, classify_eq_ok_iff.mpr ht, canReturn_of_yields hyields⟩
  error := by
    intro e he
    obtain ⟨d, hd, hkind⟩ := h.error e he ctx.types rfl
    exact Schema.isEnum_iff.mpr ⟨d, hd, decide_eq_true hkind⟩

/-! ### Operations of a valid description -/

section Valid

variable (valid : Conforms ctx.api (some ctx.types))

include valid

/-- **Every operation of a valid description can be read.** -/
theorem reads_of_mem_operations {op : Operation} (hop : op ∈ ctx.api.operations) :
    ctx.Reads op.method :=
  reads_of_methodOk (namedInPascalCase_of_handles _ valid.handlesPascal)
    (methodOk_of_mem_operations valid hop)

theorem reads_of_interface {i : Interface} (hi : i ∈ ctx.api.interfaces) {op : Operation}
    (hop : op ∈ i.operations) : ctx.Reads op.method :=
  reads_of_mem_operations valid (mem_operations_of_mem hi hop)

/-- A method is an operation of its interface. -/
theorem reads_of_method {i : Interface} (hi : i ∈ ctx.api.interfaces) {m : Method}
    (hm : m ∈ i.methods) : ctx.Reads m := by
  have hop : ⟨i, .method, m⟩ ∈ i.operations := mem_operations_iff.mpr (.inr (.inr ⟨m, hm, rfl⟩))
  exact reads_of_interface valid hi hop

/-- **A constructor returns a handle and can fail.** -/
theorem exists_of_constructor {i : Interface} (hi : i ∈ ctx.api.interfaces) {c : Method}
    (hc : c ∈ i.constructors) :
    (∃ handle, c.returnedHandle? = some handle) ∧ ∃ e, c.error = some e := by
  have hs := namedInPascalCase_of_handles (some ctx.types) valid.handlesPascal
  have hok := (valid.interfaces i hi).constructors c hc
  obtain ⟨handle, hmakes⟩ := hok.makes
  exact ⟨⟨handle, returnedHandle?_of_makes hs hok.toMethodOk hmakes⟩, hok.canFail⟩

end Valid

end Context

end Bindery
