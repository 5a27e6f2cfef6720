import Bindery.Emit
import Bindery.Proofs.Emission.Kotlin
import Bindery.Proofs.Emission.Rust
import Bindery.Proofs.Emission.Swift
import Bindery.Proofs.Emission.Wasm
import Bindery.Proofs.Schema.Comments

/-!
# Valid descriptions that are emitted

A description that passed validation should never meet an emitter that gives up. Most ways
out are indeed closed by validation, by the shape of descriptions or by the reader of
schemas: no emitter meets a type without a form, a name without a definition or, two places
apart, a name that is no identifier. What is left is a handful of conditions on the schema
that no rule asks for, and they are all there is (`Emitter.CanExpress`):

* the failure that a skeleton reports must be a value of the error type, and an enumeration
  may have none;
* records that hold themselves have no layout, and counts may be taken for something else;
* the virtual machine and Rust have no place for some fields and some names.

The main statement is `emitPlanned_eq_ok_iff_canExpress`: a valid description is emitted
exactly when every planned emitter can express it. A valid description that is not emitted
is `not_emitted_chainApi`.
-/

namespace Bindery

open Validate

/-- **What an emitter asks of a valid description** and of its schema. -/
def Emitter.CanExpress (ctx : Context) : Emitter → Prop
  | cHeader | cppBuild | rustBuild | goBuild | platformServices => True
  | kotlin => Kotlin.CanExpress ctx
  | swift => Swift.CanExpress ctx
  | javaScript => ctx.types.Acyclic ∧ ctx.types.CountsApart
  | cppSkeleton => ∀ i ∈ ctx.api.interfaces, ∀ c ∈ i.constructors, ctx.Reports c
  | goSkeleton => Go.CanDispatch ctx
  | goWasm => ctx.types.Acyclic ∧ Go.CanDispatch ctx
  | cBuild => ∀ e ∈ ctx.api.errorTypes, ctx.types.HasFailure e
  | rustSkeleton => Rust.CanExpress ctx.types

/-- **One emitter.** -/
theorem succeeds_artifacts_iff {ctx : Context} (valid : Conforms ctx.api (some ctx.types))
    (snake : ctx.api.SnakeNamed) (named : ctx.types.WellNamed) (e : Emitter) :
    Succeeds (e.artifacts ctx) ↔ e.CanExpress ctx := by
  cases e with
  | cHeader => exact iff_of_true (Header.succeeds_emit valid) trivial
  | cppBuild | rustBuild | goBuild | platformServices => exact iff_of_true succeeds_ok trivial
  | kotlin => exact Kotlin.succeeds_emit_iff valid
  | swift => exact Swift.succeeds_emit_iff valid
  | javaScript => exact JavaScript.succeeds_emit_iff valid
  | cppSkeleton => exact Cpp.succeeds_emit_iff valid
  | goSkeleton => exact Go.succeeds_emit_iff valid
  | goWasm => exact Go.succeeds_emitWasm_iff valid
  | cBuild => exact Build.succeeds_emitC_iff valid
  | rustSkeleton => exact Rust.succeeds_emit_iff valid snake named

/-- A run succeeds exactly when each emitter does. -/
theorem succeeds_emitPlanned_iff {ctx : Context} :
    Succeeds (emitPlanned ctx) ↔
      ∀ e ∈ plan ctx.api.effectiveTargets ctx.api.metadata.language, Succeeds (e.artifacts ctx) := by
  unfold emitPlanned emitAll
  rw [succeeds_bind_pure_iff, succeeds_mapM_iff]
  exact forall₂_congr fun e _ => succeeds_mapError_iff

/-- Another language and other targets change no name. -/
theorem Api.SnakeNamed.override {a : Api} (h : a.SnakeNamed) (language : Option Language)
    (targets : List Target) : (a.override language targets).SnakeNamed :=
  ⟨h.name, h.interfaces⟩

/-- **A valid description is emitted exactly when every planned emitter can express it.** The
document has the shape of a description, the schema was read from a text or from files, and
language and targets are any that the description names or that are asked for in their
place. -/
theorem emitPlanned_eq_ok_iff_canExpress {doc : Json} {a : Api} {language : Option Language}
    {targets : List Target} {ctx : Context} (hdoc : Api.ofDocument doc = .ok a)
    (hapi : ctx.api = a.override language targets) (hread : ctx.types.IsRead)
    (hvalid : ctx.api.validate (some ctx.types) = []) :
    (∃ artifacts, emitPlanned ctx = .ok artifacts) ↔
      ∀ e ∈ plan ctx.api.effectiveTargets ctx.api.metadata.language, e.CanExpress ctx := by
  have valid : Conforms ctx.api (some ctx.types) := conforms_of_validate hvalid
  have snake : ctx.api.SnakeNamed := by
    rw [hapi]
    exact (snakeNamed_of_ofDocument hdoc).override language targets
  rw [← Succeeds, succeeds_emitPlanned_iff]
  exact forall₂_congr fun e _ => succeeds_artifacts_iff valid snake hread.wellNamed e

/-! ### A description that is emitted -/

/-- The text of a schema with an error type that can report a failure, and a record. -/
def shelfText : String :=
  "enum Outcome : int \x7b Ok = 0, Full = 1 \x7d\ntable Book \x7b title: string; pages: [int]; \x7d\n"

/-- The types of that schema. -/
def shelfTypes : Schema :=
  (Keyed.empty.insert "Outcome"
      { kind := .enum, base := some .int32, values := [⟨"Ok", 0⟩, ⟨"Full", 1⟩] }).insert "Book"
    { kind := .table, fields := [⟨"title", .string⟩, ⟨"pages", .vector (.primitive .int32)⟩] }

/-- A shelf that takes books until it is full. -/
def shelfApi : Api where
  metadata := { name := "demo", version := "1.0.0", language := .rust }
  schemas := ["demo.fbs"]
  handles := [{ name := "Shelf" }]
  interfaces := [
    { name := "shelf",
      constructors := [
        { name := "create", returns := some { type := "handle:Shelf" }, error := some "Outcome" }],
      methods := [
        { name := "add",
          parameters := [
            { name := "shelf", type := "handle:Shelf" },
            { name := "book", type := "Book", transfer := some .ref }],
          error := some "Outcome" }] }]

/-- The shelf in Go, for all targets. -/
def shelfContext : Context where
  api := shelfApi.override (some .go) []
  types := shelfTypes

theorem shelf_read : shelfTypes.IsRead := by
  have hdefinitions : Schema.definitionsIn shelfText =
      [("Outcome", { kind := .enum, base := some .int32, values := [⟨"Ok", 0⟩, ⟨"Full", 1⟩] }),
        ("Book", {
          kind := .table
          fields := [⟨"title", .string⟩, ⟨"pages", .vector (.primitive .int32)⟩] })] := by
    unfold shelfText
    rw [Schema.definitionsIn_eq, String.toList_ofList]
    decide +kernel
  have hparse : Schema.parse shelfText = .ok shelfTypes := by
    rw [Schema.parse, hdefinitions]
    rfl
  exact .text hparse

theorem shelf_document : Api.ofDocument shelfApi.toJson = .ok shelfApi :=
  ofDocument_eq_ok_iff.mpr (by decide +kernel)

/-- What holds of both types holds of every type. -/
theorem shelf_forall_types {P : String → TypeDef → Prop}
    (h : ∀ e ∈ shelfTypes.entries, P e.1 e.2) : ∀ n d, shelfTypes.get? n = some d → P n d :=
  fun n d hd => h (n, d) (Keyed.get?_eq_some_iff.mp hd)

theorem shelf_acyclic : shelfTypes.Acyclic := by
  -- no field refers to another type
  have hnone : ∀ n d, shelfTypes.get? n = some d → d.fields.filterMap Field.reference? = [] :=
    shelf_forall_types (by decide)
  intro n hcycle
  obtain ⟨m, ⟨d, hd, -, hm, -⟩, -⟩ := Relation.TransGen.head'_iff.mp hcycle
  rw [hnone n d hd] at hm
  cases hm

theorem shelf_hasFailure : shelfTypes.HasFailure "Outcome" :=
  ⟨_, rfl, ⟨"Full", 1⟩, by decide⟩

theorem shelf_reports : ∀ m ∈ shelfContext.api.authored, shelfContext.Reports m := by
  intro m hm e he
  have herrors : ∀ m ∈ shelfContext.api.authored, m.error = some "Outcome" := by decide
  obtain rfl : "Outcome" = e := Option.some.inj ((herrors m hm).symm.trans he)
  exact shelf_hasFailure

theorem shelf_errorTypes : ∀ e ∈ shelfContext.api.errorTypes, e = "Outcome" := by decide

theorem shelf_countsApart : shelfTypes.CountsApart := by
  -- no field at all is called like a count
  have hapart : ∀ n d, shelfTypes.get? n = some d → ∀ f ∈ d.fields, ∀ g ∈ d.fields,
      g.name ≠ Abi.countName f.name := shelf_forall_types (by decide)
  intro n d hd _ f hf element _ _ g hg
  exact hapart n d hd f hf g (List.mem_of_find?_eq_some hg)

theorem shelf_rust : Rust.CanExpress shelfTypes := by
  have hnone : ∀ n d, shelfTypes.get? n = some d → ∀ f ∈ d.fields, f.type.mentioned? = none :=
    shelf_forall_types (by decide)
  refine ⟨shelf_forall_types (by decide), fun n d hd _ f hf element htype m hm => ?_⟩
  have hmentioned := hnone n d hd f hf
  rw [htype] at hmentioned
  cases hm.symm.trans hmentioned

/-- Every emitter can express the shelf. -/
theorem shelf_canExpress (e : Emitter) : e.CanExpress shelfContext := by
  -- Each emitter asks for its own conditions, and most of them are about the one error type.
  have hdispatch : Go.CanDispatch shelfContext := fun i hi m hm =>
    shelf_reports m (List.mem_flatMap.mpr
      ⟨i, hi, List.mem_append_right _ (List.mem_filter.mp hm).1⟩)
  cases e with
  | cHeader | cppBuild | rustBuild | goBuild | platformServices => trivial
  | kotlin =>
    have hjvm : ∀ n d, shelfTypes.get? n = some d → ∀ f ∈ d.fields,
        Kotlin.HasJvmType shelfTypes f.type := shelf_forall_types (by decide)
    exact fun n d _ hd => hjvm n d hd
  | swift =>
    intro e d he hd
    obtain rfl := shelf_errorTypes e he
    obtain ⟨d', hd', v, hv, -⟩ := shelf_hasFailure
    obtain rfl : d' = d := Option.some.inj (hd'.symm.trans hd)
    exact List.ne_nil_of_mem hv
  | javaScript => exact ⟨shelf_acyclic, shelf_countsApart⟩
  | cppSkeleton =>
    intro i hi c hc
    exact shelf_reports c (List.mem_flatMap.mpr ⟨i, hi, List.mem_append_left _ hc⟩)
  | goSkeleton => exact hdispatch
  | goWasm => exact ⟨shelf_acyclic, hdispatch⟩
  | cBuild =>
    intro e he
    obtain rfl := shelf_errorTypes e he
    exact shelf_hasFailure
  | rustSkeleton => exact shelf_rust

/-- The emitters of Go and of all platforms write the shelf. -/
theorem emitPlanned_shelfContext :
    Api.ofDocument shelfApi.toJson = .ok shelfApi ∧ shelfTypes.IsRead ∧
      shelfContext.api.validate (some shelfTypes) = [] ∧
      ∃ artifacts, emitPlanned shelfContext = .ok artifacts := by
  have hvalid : shelfContext.api.validate (some shelfTypes) = [] := by decide
  exact ⟨shelf_document, shelf_read, hvalid,
    (emitPlanned_eq_ok_iff_canExpress shelf_document rfl shelf_read hvalid).mpr
      fun e _ => shelf_canExpress e⟩

/-! ### A description that is not emitted -/

def chainText : String := "table Node \x7b next: Node; \x7d\n"

/-- A record that holds itself. -/
def chainTypes : Schema :=
  Keyed.empty.insert "Node" { kind := .table, fields := [⟨"next", .named "Node"⟩] }

/-- A description that does not even mention the record. -/
def chainApi : Api where
  metadata := { name := "demo", version := "1.0.0", language := .rust }
  schemas := ["demo.fbs"]
  interfaces := [{ name := "chain", methods := [{ name := "ping" }] }]

theorem not_acyclic_chainTypes : ¬ chainTypes.Acyclic := by
  intro acyclic
  have hholds : chainTypes.Holds "Node" "Node" := ⟨_, rfl, by decide⟩
  exact acyclic "Node" (.single hholds)

/-- **A valid description that is not emitted**: the web is among its targets, and the schema
has a record without a layout. -/
theorem not_emitted_chainApi :
    Api.ofDocument chainApi.toJson = .ok chainApi ∧ Schema.parse chainText = .ok chainTypes ∧
      chainApi.validate (some chainTypes) = [] ∧
      ¬ ∃ artifacts, emitPlanned { api := chainApi, types := chainTypes } = .ok artifacts := by
  have hvalid : chainApi.validate (some chainTypes) = [] := by decide
  refine ⟨ofDocument_eq_ok_iff.mpr (by decide), by cbv, hvalid, fun h => ?_⟩
  have hscript := succeeds_emitPlanned_iff.mp h .javaScript (by decide)
  exact not_acyclic_chainTypes
    ((JavaScript.succeeds_emit_iff (conforms_of_validate hvalid)).mp hscript).1

end Bindery
