import Bindery.Emit.Kotlin
import Bindery.Proofs.Emission.Basic
import Bindery.Proofs.Nesting

/-!
# The Kotlin binding

What crosses between Kotlin and C are scalars, texts, arrays of scalars, handles,
enumerations and records. The types that a valid description writes are all of these. The
types that the schema writes into the fields of a record need not be: a vector may have
elements that are no scalars, and a name may stand for a union or for nothing at all. The
binding meets them in every record that crosses, with those inside it, as each of these
becomes a data class.

* `mem_recordNames_iff` — which records become data classes;
* `succeeds_emit_iff` — the binding is emitted exactly when each field of each of them has
  a type on the virtual machine (`HasJvmType`).
-/

namespace Bindery.Kotlin

open Relation Validate

variable {ctx : Context}

/-! ### Records that cross -/

/-- **The types of fields that exist on the virtual machine.** -/
def HasJvmType (types : Schema) : FieldType → Prop
  | .primitive _ | .string | .vector (.primitive _) => True
  | .vector _ => False
  | .named n => types.isEnum n = true ∨ types.isRecord n = true

instance decidableHasJvmType (types : Schema) : (t : FieldType) → Decidable (HasJvmType types t)
  | .primitive _ | .string | .vector (.primitive _) => isTrue trivial
  | .vector .string | .vector (.vector _) | .vector (.named _) => isFalse id
  | .named n => inferInstanceAs (Decidable (types.isEnum n = true ∨ types.isRecord n = true))

/-- **The record crosses.** It is the type of a parameter or of a result, or it is inside
of such a record. -/
def Crosses (ctx : Context) (n : String) : Prop :=
  ctx.types.isRecord n = true ∧ ∃ m ∈ ctx.api.authored, ∃ ty ∈ Context.mentionedTypes m,
    ∃ root, Context.qualified? ty = some root ∧ ReflTransGen ctx.types.Holds root n

/-- **The binding can express what crosses.** -/
def CanExpress (ctx : Context) : Prop :=
  ∀ n d, Crosses ctx n → ctx.types.get? n = some d → ∀ f ∈ d.fields, HasJvmType ctx.types f.type

theorem mem_returnedRecords_iff {n : String} :
    n ∈ returnedRecords ctx ↔ ctx.types.isRecord n = true ∧ ∃ m ∈ ctx.api.authored,
      ∃ ty ∈ m.returnType?, ∃ root, Context.qualified? ty = some root ∧
        ReflTransGen ctx.types.Holds root n := by
  rw [returnedRecords, Schema.mem_recordClosure_iff]
  simp only [Context.returnedTypes, Text.mem_distinct_iff, List.mem_filterMap,
    Option.bind_eq_bind, Option.bind_eq_some_iff, Option.mem_def]
  constructor
  · rintro ⟨hrec, root, ⟨m, hm, ty, hty, hroot⟩, hpath⟩
    exact ⟨hrec, m, hm, ty, hty, root, hroot, hpath⟩
  · rintro ⟨hrec, m, hm, ty, hty, root, hroot, hpath⟩
    exact ⟨hrec, root, ⟨m, hm, ty, hty, hroot⟩, hpath⟩

theorem mem_passedRecords_iff {n : String} :
    n ∈ passedRecords ctx ↔ ctx.types.isRecord n = true ∧ ∃ m ∈ ctx.api.authored,
      ∃ p ∈ m.parameters, ∃ root, Context.qualified? p.type = some root ∧
        ReflTransGen ctx.types.Holds root n := by
  rw [passedRecords, Schema.mem_recordClosure_iff]
  simp only [Text.mem_distinct_iff, List.mem_flatMap, List.mem_filterMap]
  constructor
  · rintro ⟨hrec, root, ⟨m, hm, p, hp, hroot⟩, hpath⟩
    exact ⟨hrec, m, hm, p, hp, root, hroot, hpath⟩
  · rintro ⟨hrec, m, hm, p, hp, root, hroot, hpath⟩
    exact ⟨hrec, root, ⟨m, hm, p, hp, hroot⟩, hpath⟩

/-- **The records that become data classes are those that cross.** -/
theorem mem_recordNames_iff {n : String} : n ∈ Source.recordNames ctx ↔ Crosses ctx n := by
  rw [Source.recordNames, Text.mem_distinct_iff, List.mem_append, mem_returnedRecords_iff,
    mem_passedRecords_iff]
  unfold Crosses Context.mentionedTypes
  simp only [List.mem_append, List.mem_map, Option.mem_toList, Option.mem_def]
  constructor
  -- What is returned and what is passed are the two ways in which a type is mentioned.
  · rintro (⟨hrec, m, hm, ty, hty, hroot⟩ | ⟨hrec, m, hm, p, hp, hroot⟩)
    · exact ⟨hrec, m, hm, ty, .inr hty, hroot⟩
    · exact ⟨hrec, m, hm, p.type, .inl ⟨p, hp, rfl⟩, hroot⟩
  · rintro ⟨hrec, m, hm, ty, ⟨p, hp, rfl⟩ | hty, hroot⟩
    · exact .inr ⟨hrec, m, hm, p, hp, hroot⟩
    · exact .inl ⟨hrec, m, hm, ty, hty, hroot⟩

/-- Records that are built or read cross. -/
theorem crosses_of_mem {n : String} (h : n ∈ returnedRecords ctx ∨ n ∈ passedRecords ctx) :
    Crosses ctx n := by
  rw [← mem_recordNames_iff, Source.recordNames, Text.mem_distinct_iff, List.mem_append]
  exact h

/-! ### The fields of a record -/

theorem succeeds_fieldType_iff {record : String} {t : FieldType} :
    Succeeds (fieldType ctx record t) ↔ HasJvmType ctx.types t := by
  cases t with
  | primitive _ | string => exact iff_of_true succeeds_ok trivial
  | vector element =>
    cases element with
    | primitive _ => exact iff_of_true succeeds_ok trivial
    | string | vector _ | named _ => exact iff_of_false not_succeeds_error id
  | named n =>
    unfold fieldType HasJvmType Context.isEnum
    -- A named type needs to be an enum or a record.
    by_cases henum : ctx.types.isEnum n = true
    · simp [henum]
    · by_cases hrecord : ctx.types.isRecord n = true <;> simp [henum, hrecord]

/-- The data class of a record needs a type for each field. -/
theorem succeeds_dataClass_iff {n : String} {d : TypeDef} (hd : ctx.types.get? n = some d) :
    Succeeds (DataClass.ofRecord ctx n) ↔ ∀ f ∈ d.fields, HasJvmType ctx.types f.type := by
  unfold DataClass.ofRecord Context.typeDef
  rw [hd]
  refine succeeds_bind_iff_right succeeds_ok ?_
  rintro _ ⟨⟩
  simp only [succeeds_bind_pure_iff, succeeds_mapM_iff, succeeds_fieldType_iff]

/-- A field that has a type can be built. -/
theorem succeeds_toJava {n : String} {d : TypeDef} (hd : ctx.types.get? n = some d)
    (hfields : ∀ f ∈ d.fields, HasJvmType ctx.types f.type) : Succeeds (ToJava.ofRecord ctx n) := by
  unfold ToJava.ofRecord Context.typeDef
  rw [hd]
  refine succeeds_ok.bind ?_
  rintro _ ⟨⟩
  rw [succeeds_bind_pure_iff, succeeds_mapM_iff]
  intro f hf
  -- Only vectors of anything but scalars are without a type, and the fields have one.
  have htype := hfields f hf
  unfold ToJava.field
  cases hft : f.type with
  | primitive _ | string => exact succeeds_ok
  | vector element =>
    rw [hft] at htype
    cases element with
    | primitive _ => exact succeeds_ok
    | string | vector _ | named _ => exact htype.elim
  | named t => cases henum : ctx.isEnum t <;> simp [henum]

/-- A field that has a type can be read. -/
theorem succeeds_fromJava {n : String} {d : TypeDef} (hd : ctx.types.get? n = some d)
    (hfields : ∀ f ∈ d.fields, HasJvmType ctx.types f.type) :
    Succeeds (FromJava.ofRecord ctx n) := by
  unfold FromJava.ofRecord Context.typeDef
  rw [hd]
  refine succeeds_ok.bind ?_
  rintro _ ⟨⟩
  rw [succeeds_bind_pure_iff, succeeds_mapM_iff]
  intro f hf
  have htype := hfields f hf
  unfold FieldRead.ofField
  rw [succeeds_map_iff]
  cases hft : f.type with
  | primitive _ | string | named _ => exact succeeds_ok
  | vector element =>
    rw [hft] at htype
    cases element with
    | primitive _ => exact succeeds_ok
    | string | vector _ | named _ => exact htype.elim

/-! ### The types of an operation -/

/-- What can be passed has a type on the virtual machine. -/
theorem succeeds_ofText {ty : String} {t : TypeRef} (ht : Abi.classify ty = .ok t)
    (hpass : ctx.CanPass t) : Succeeds (JvmType.ofText ctx ty) := by
  unfold JvmType.ofText
  rw [ht]
  cases t with
  | string | buffer _ | handle _ | primitive _ => exact ⟨_, rfl⟩
  | qualified q =>
    obtain ⟨d, hd, hkind⟩ := hpass.exists_typeDef
    refine succeeds_ok.bind ?_
    rintro _ ⟨⟩
    refine Succeeds.bind (Context.succeeds_typeDef_iff.mpr ⟨d, hd⟩) fun d' hd' => ?_
    obtain rfl : d = d' := by simpa [Context.typeDef, hd] using hd'
    -- A named type that can be passed is an enum or a record.
    rcases hkind with hkind | hkind
    · simp [hkind]
    · cases d.isEnum <;> simp [hkind]

/-- The types that a result can have: neither a text nor an array. -/
def IsResult : JvmType → Prop
  | .text | .array _ => False
  | .scalar _ | .handle _ | .enum _ | .record _ => True

/-- Only texts and buffers cross as what is no result. -/
theorem isResult_of_ofText {ty : String} {t : TypeRef} (ht : Abi.classify ty = .ok t)
    (hstring : t ≠ .string) (hbuffer : ∀ element, t ≠ .buffer element) {j : JvmType}
    (hj : JvmType.ofText ctx ty = .ok j) : IsResult j := by
  unfold JvmType.ofText at hj
  rw [ht] at hj
  cases t with
  | string => exact absurd rfl hstring
  | buffer element => exact absurd rfl (hbuffer element)
  | handle _ | primitive _ =>
    obtain rfl := pure_eq_ok_iff.mp hj
    trivial
  | qualified q =>
    obtain ⟨_, ⟨⟩, hj⟩ := bind_eq_ok_iff.mp hj
    obtain ⟨d, -, hj⟩ := bind_eq_ok_iff.mp hj
    split at hj
    · obtain rfl := pure_eq_ok_iff.mp hj
      trivial
    · split at hj
      · obtain rfl := pure_eq_ok_iff.mp hj
        trivial
      · exact absurd hj throw_ne_ok

section Operation

variable {m : Method} (hm : ctx.Reads m)

include hm

theorem succeeds_ofReturn : Succeeds (JvmType.ofReturn ctx m) := by
  unfold JvmType.ofReturn
  cases hreturns : m.returns with
  | none => exact succeeds_ok
  | some r =>
    obtain ⟨t, ht, hreturn⟩ := hm.returns r hreturns
    rw [succeeds_map_iff]
    exact succeeds_ofText ht hreturn.canPass

/-- What an operation returns is a result, and it is there exactly when the operation
writes one. -/
theorem isResult_of_ofReturn {ret : Option JvmType} (hret : JvmType.ofReturn ctx m = .ok ret) :
    (ret.isSome = m.returns.isSome) ∧ ∀ j, ret = some j → IsResult j := by
  unfold JvmType.ofReturn at hret
  cases hreturns : m.returns with
  | none =>
    rw [hreturns] at hret
    obtain rfl := Except.ok.inj hret
    exact ⟨rfl, nofun⟩
  | some r =>
    rw [hreturns] at hret
    obtain ⟨j, hj, rfl⟩ := map_eq_ok_iff.mp hret
    obtain ⟨t, ht, hreturn⟩ := hm.returns r hreturns
    -- What is returned has a form that can be returned, so it is neither a text nor a buffer.
    refine ⟨rfl, ?_⟩
    rintro _ ⟨⟩
    refine isResult_of_ofText ht ?_ ?_ hj
    · rintro rfl
      exact hreturn
    · rintro element rfl
      exact hreturn

omit hm in
/-- A result that is no record can travel in an array of two. -/
theorem succeeds_outcomeOf {ret : Option JvmType} (h : ∀ j, ret = some j → IsResult j) :
    Succeeds (Wrapper.outcomeOf m.error ret) := by
  unfold Wrapper.outcomeOf
  cases m.error with
  | none =>
    cases ret with
    | none => exact succeeds_ok
    | some j => cases j <;> exact succeeds_ok
  | some e =>
    cases ret with
    | none => exact succeeds_ok
    | some j =>
      -- Texts and arrays have no default to fall back to, and they are no results.
      have hj := h j rfl
      cases j with
      | text | array _ => exact hj.elim
      | record _ => exact succeeds_ok
      | handle _ | enum _ | scalar _ =>
        rw [succeeds_map_iff]
        exact succeeds_ok

/-- A result with a status goes through the trailing pointer, so there is one. -/
theorem succeeds_bridgeOutcome {symbol : String} {s : Abi.Signature}
    (hs : Abi.Signature.ofMethod symbol m = .ok s) {ret : Option JvmType}
    (hret : JvmType.ofReturn ctx m = .ok ret) : Succeeds (Bridge.outcomeOf ctx s m ret) := by
  unfold Bridge.outcomeOf
  cases herror : m.error with
  | none => cases ret <;> exact succeeds_ok
  | some e =>
    cases ret with
    | none => exact succeeds_ok
    | some j =>
      -- An error and a result together give the signature its place for the result.
      have hreturns : m.returns.isSome := (isResult_of_ofReturn hm hret).1.symm
      have hout : s.out.isSome := (Abi.isSome_out_iff hs).mpr ⟨by simp [herror], hreturns⟩
      obtain ⟨v, hv⟩ := Option.isSome_iff_exists.mp hout
      rw [hv]
      cases j <;> exact succeeds_ok

end Operation

theorem succeeds_wrapper {op : Operation} (hm : ctx.Reads op.method) (onHandle : Bool) :
    Succeeds (Wrapper.ofOperation ctx onHandle op) := by
  unfold Wrapper.ofOperation
  -- on the class of a handle the first parameter is left out
  refine Succeeds.bind ?_ fun params _ => ?_
  · refine hm.succeeds_parameters (fun p t ht hpass => ?_) ?_
    · unfold Wrapper.param
      rw [succeeds_bind_pure_iff]
      exact succeeds_ofText ht hpass
    · split
      · exact List.drop_subset 1 _
      · exact List.Subset.refl _
  · refine (succeeds_ofReturn hm).bind fun ret hret => ?_
    rw [succeeds_bind_pure_iff]
    exact succeeds_outcomeOf (isResult_of_ofReturn hm hret).2

theorem succeeds_external {op : Operation} (hm : ctx.Reads op.method) :
    Succeeds (ExternalFun.ofOperation ctx op) := by
  unfold ExternalFun.ofOperation
  refine Succeeds.bind ?_ fun params _ => ?_
  · refine hm.succeeds_parameters (fun p t ht hpass => ?_) (List.Subset.refl _)
    rw [succeeds_bind_pure_iff]
    exact succeeds_ofText ht hpass
  · rw [succeeds_bind_pure_iff]
    exact succeeds_ofReturn hm

/-! ### The two files -/

section Files

variable (valid : Conforms ctx.api (some ctx.types))

include valid

theorem succeeds_bridge {op : Operation} (hop : op ∈ ctx.api.operations) :
    Succeeds (Bridge.ofOperation ctx op) := by
  have hm := ctx.reads_of_mem_operations valid hop
  unfold Bridge.ofOperation
  refine Succeeds.bind (Abi.exists_signature valid hop) fun s hs => ?_
  refine (succeeds_ofReturn hm).bind fun ret hret => ?_
  refine Succeeds.bind ?_ fun types _ => ?_
  · refine hm.succeeds_parameters (fun p t ht hpass => ?_) (List.Subset.refl _)
    rw [succeeds_bind_pure_iff]
    exact succeeds_ofText ht hpass
  · rw [succeeds_bind_pure_iff]
    exact succeeds_bridgeOutcome hm hs hret

theorem succeeds_object : Succeeds (ApiObject.ofApi ctx) := by
  -- The filters change which operations are wrapped, and not whether wrapping succeeds.
  have hwrapper : ∀ keep : Operation → Bool,
      Succeeds ((ctx.api.operations.filter keep).mapM (Wrapper.ofOperation ctx false)) := by
    intro keep
    rw [succeeds_mapM_iff]
    intro op hop
    exact succeeds_wrapper (ctx.reads_of_mem_operations valid (List.mem_filter.mp hop).1) false
  unfold ApiObject.ofApi
  refine (hwrapper _).bind fun _ _ => (hwrapper _).bind fun _ _ => ?_
  rw [succeeds_bind_pure_iff, succeeds_mapM_iff]
  intro op hop
  exact succeeds_external (ctx.reads_of_mem_operations valid hop)

theorem succeeds_classes : Succeeds (ctx.api.handles.mapM (HandleClass.ofHandle ctx)) := by
  rw [succeeds_mapM_iff]
  intro h _
  unfold HandleClass.ofHandle
  rw [succeeds_bind_pure_iff, succeeds_mapM_iff]
  intro op hop
  exact succeeds_wrapper (ctx.reads_of_mem_operations valid (List.mem_filter.mp hop).1) true

omit valid in
theorem succeeds_dataClasses_iff :
    Succeeds ((Source.recordNames ctx).mapM (DataClass.ofRecord ctx)) ↔ CanExpress ctx := by
  rw [succeeds_mapM_iff]
  constructor
  · intro h n d hn hd
    exact (succeeds_dataClass_iff hd).mp (h n (mem_recordNames_iff.mpr hn))
  · intro h n hn
    have hcrosses := mem_recordNames_iff.mp hn
    obtain ⟨d, hd, -⟩ := Schema.isRecord_iff.mp hcrosses.1
    exact (succeeds_dataClass_iff hd).mpr (h n d hcrosses hd)

/-- The C file needs no more than the Kotlin file. -/
theorem succeeds_bridgeFile (h : CanExpress ctx) : Succeeds (BridgeFile.ofContext ctx) := by
  -- every record that is built or read has a data class
  have hrecord : ∀ n, n ∈ returnedRecords ctx ∨ n ∈ passedRecords ctx →
      ∃ d, ctx.types.get? n = some d ∧ ∀ f ∈ d.fields, HasJvmType ctx.types f.type := by
    intro n hn
    have hcrosses := crosses_of_mem hn
    obtain ⟨d, hd, -⟩ := Schema.isRecord_iff.mp hcrosses.1
    exact ⟨d, hd, h n d hcrosses hd⟩
  unfold BridgeFile.ofContext
  refine Succeeds.bind ?_ fun builders _ => Succeeds.bind ?_ fun readers _ => ?_
  · rw [succeeds_mapM_iff]
    intro n hn
    obtain ⟨d, hd, hfields⟩ := hrecord n (.inl hn)
    exact succeeds_toJava hd hfields
  · rw [succeeds_mapM_iff]
    intro n hn
    obtain ⟨d, hd, hfields⟩ := hrecord n (.inr hn)
    exact succeeds_fromJava hd hfields
  · simp only [succeeds_bind_pure_iff, succeeds_mapM_iff]
    intro i hi op hop
    exact succeeds_bridge valid (mem_operations_of_mem hi hop)

/-- **The Kotlin binding is emitted exactly when every field of every record that crosses
has a type on the virtual machine.** -/
theorem succeeds_emit_iff : Succeeds (Kotlin.emit ctx) ↔ CanExpress ctx := by
  -- The source decides: where it succeeds, the bridge does too.
  have hsource : Succeeds (Source.ofContext ctx) ↔ CanExpress ctx := by
    unfold Source.ofContext
    rw [← succeeds_dataClasses_iff, succeeds_bind_iff (P := True), and_true]
    intro records _
    refine iff_of_true ?_ trivial
    refine (succeeds_classes valid).bind fun _ _ => ?_
    rw [succeeds_bind_pure_iff]
    exact succeeds_object valid
  unfold Kotlin.emit
  constructor
  · rintro ⟨artifacts, hartifacts⟩
    obtain ⟨source, h, -⟩ := bind_eq_ok_iff.mp hartifacts
    exact hsource.mp ⟨source, h⟩
  · intro h
    refine (hsource.mpr h).bind fun source _ => ?_
    rw [succeeds_bind_pure_iff]
    exact succeeds_bridgeFile valid h

end Files

end Bindery.Kotlin
