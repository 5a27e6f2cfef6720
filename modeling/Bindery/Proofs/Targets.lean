import Bindery.Proofs.Destinations

/-!
# Targets as a set

A description lists its targets in some order, and nothing keeps it from listing one twice. What
is generated depends only on which targets are listed:

* `ofTargets_eq_of_sameTargets` — the families of platforms come in an order of their own;
* `plan_perm` — the planned emitters are the same, though the bindings follow the order of the
  list;
* `artifacts_eq_of_sameTargets` — each emitter makes the same files. Most of them do not look at
  the targets at all. The makefiles and the stubs of the platform services do, and they only ask
  for families and for single targets;
* `emitPlanned_perm` — so two runs make the same artifacts, in an order that may differ.
-/

namespace Bindery

/-! ### Other targets -/

/-- The description with another list of targets. -/
def Api.withTargets (a : Api) (targets : List Target) : Api :=
  { a with metadata := { a.metadata with targets } }

/-- The input of the emitters with another list of targets. -/
def Context.withTargets (ctx : Context) (targets : List Target) : Context :=
  { ctx with api := ctx.api.withTargets targets }

/-- Two lists that name the same targets, in any order and any number of times. -/
def SameTargets (ts ts' : List Target) : Prop := ∀ t, t ∈ ts ↔ t ∈ ts'

namespace SameTargets

variable {ts ts' : List Target}

theorem contains_eq (h : SameTargets ts ts') (t : Target) : ts.contains t = ts'.contains t := by
  rw [Bool.eq_iff_iff, List.contains_iff_mem, List.contains_iff_mem]
  exact h t

theorem any_eq (h : SameTargets ts ts') (p : Target → Bool) : ts.any p = ts'.any p := by
  rw [Bool.eq_iff_iff, List.any_eq_true, List.any_eq_true]
  exact exists_congr fun t => and_congr_left fun _ => h t

end SameTargets

/-! ### Plans -/

/-- **The families of platforms do not depend on the order of the targets.** -/
theorem ofTargets_eq_of_sameTargets {ts ts' : List Target} (h : SameTargets ts ts') :
    Platform.ofTargets ts = Platform.ofTargets ts' := by
  unfold Platform.ofTargets
  rw [h.any_eq, h.contains_eq, h.contains_eq, h.contains_eq]

/-- **The same emitters are planned.** -/
theorem plan_perm {ts ts' : List Target} (h : SameTargets ts ts') (language : Language) :
    (plan ts language).Perm (plan ts' language) := by
  have hbindings : ∀ e, e ∈ ts.filterMap Target.binding? ↔ e ∈ ts'.filterMap Target.binding? := by
    intro e
    rw [List.mem_filterMap, List.mem_filterMap]
    exact exists_congr fun t => and_congr_left fun _ => h t
  refine (List.perm_ext_iff_of_nodup (Text.nodup_distinct _) (Text.nodup_distinct _)).mpr fun e => ?_
  rw [Text.mem_distinct_iff, Text.mem_distinct_iff]
  simp only [List.mem_append, hbindings e, h.contains_eq]

/-! ### Emitters -/

namespace Kotlin

/-- The descriptor of a field depends on the schema and the name of the description. -/
theorem fieldDescriptor_withTargets (ctx : Context) (ts : List Target) (t : FieldType) :
    fieldDescriptor (ctx.withTargets ts) t = fieldDescriptor ctx t := by
  induction t with
  | primitive p => rfl
  | string => rfl
  | vector element ih => rw [fieldDescriptor, ih, fieldDescriptor]
  | named n => rfl

theorem toJava_withTargets (ctx : Context) (ts : List Target) :
    ToJava.ofRecord (ctx.withTargets ts) = ToJava.ofRecord ctx := by
  funext record
  unfold ToJava.ofRecord
  simp only [fieldDescriptor_withTargets]
  rfl

theorem fromJava_withTargets (ctx : Context) (ts : List Target) :
    FromJava.ofRecord (ctx.withTargets ts) = FromJava.ofRecord ctx := by
  have hfield : FieldRead.ofField (ctx.withTargets ts) = FieldRead.ofField ctx := by
    funext record f
    unfold FieldRead.ofField
    rw [fieldDescriptor_withTargets]
    rfl
  funext record
  unfold FromJava.ofRecord
  rw [hfield]
  rfl

theorem emit_withTargets (ctx : Context) (ts : List Target) :
    emit (ctx.withTargets ts) = emit ctx := by
  have hbridge : BridgeFile.ofContext (ctx.withTargets ts) = BridgeFile.ofContext ctx := by
    unfold BridgeFile.ofContext
    rw [toJava_withTargets, fromJava_withTargets]
    rfl
  unfold emit
  rw [hbridge]
  rfl

end Kotlin

section Emitters

variable {ctx : Context} {ts ts' : List Target}
  (same : SameTargets (ctx.withTargets ts).api.effectiveTargets
    (ctx.withTargets ts').api.effectiveTargets)

include same

/-- **A makefile asks for families of platforms and for one target.** -/
theorem makefile_eq_of_sameTargets (language : Language) :
    (Build.Makefile.mk (ctx.withTargets ts) language).artifact =
      (Build.Makefile.mk (ctx.withTargets ts') language).artifact := by
  -- The makefile asks whether targets are among them and never in which order.
  have hfamilies : (Build.Makefile.mk (ctx.withTargets ts) language).families =
      (Build.Makefile.mk (ctx.withTargets ts') language).families :=
    ofTargets_eq_of_sameTargets same
  have hmacos : (ctx.withTargets ts).api.hasTarget .macos =
      (ctx.withTargets ts').api.hasTarget .macos := same.contains_eq .macos
  have hlines : (Build.Makefile.mk (ctx.withTargets ts) language).lines =
      (Build.Makefile.mk (ctx.withTargets ts') language).lines := by
    simp only [Build.Makefile.lines, Build.Makefile.variableLines, Build.Makefile.toolchainLines,
      Build.Makefile.when, Build.Makefile.has, hfamilies, hmacos]
    rfl
  unfold Build.Makefile.artifact
  rw [hlines]
  rfl

/-- **Every emitter makes the same files.** -/
theorem artifacts_eq_of_sameTargets (e : Emitter) :
    e.artifacts (ctx.withTargets ts) = e.artifacts (ctx.withTargets ts') := by
  -- Emitters that do not look at the targets are equal at once.
  cases e with
  | kotlin => exact (Kotlin.emit_withTargets ctx ts).trans (Kotlin.emit_withTargets ctx ts').symm
  | cBuild =>
    change (Build.cStubs ctx >>= fun stubs => _) = (Build.cStubs ctx >>= fun stubs => _)
    rw [makefile_eq_of_sameTargets same]
    rfl
  | cppBuild | rustBuild | goBuild =>
    change Build.emit _ _ = Build.emit _ _
    unfold Build.emit
    rw [makefile_eq_of_sameTargets same]
  | platformServices =>
    change PlatformServices.emit _ = PlatformServices.emit _
    unfold PlatformServices.emit
    rw [ofTargets_eq_of_sameTargets same]
    rfl
  | cHeader | swift | javaScript | cppSkeleton | rustSkeleton | goSkeleton | goWasm => rfl

end Emitters

/-! ### Runs -/

/-- Emitters that run in another order make their files in another order. -/
theorem emitAll_perm {es es' : List Emitter} {ctx ctx' : Context} {artifacts : List Artifact}
    (hes : es.Perm es') (same : ∀ e, Emitter.artifacts e ctx = e.artifacts ctx')
    (h : emitAll es ctx = .ok artifacts) :
    ∃ artifacts', emitAll es' ctx' = .ok artifacts' ∧ artifacts.Perm artifacts' := by
  obtain ⟨made, hmade, hflatten⟩ := bind_eq_ok_iff.mp h
  have hemit : (fun e : Emitter => e.emit ctx) = fun e => e.emit ctx' :=
    funext fun e => congrArg (tagged e.name) (same e)
  rw [hemit, mapM_eq_ok_iff] at hmade
  obtain ⟨made', hmade', hperm⟩ := List.perm_comp_forall₂ hes.symm hmade
  refine ⟨made'.flatten, bind_eq_ok_iff.mpr ⟨made', mapM_eq_ok_iff.mpr hmade', rfl⟩, ?_⟩
  rw [← Except.ok.inj hflatten]
  exact hperm.symm.flatten

/-- **Neither the order nor the repetition of targets changes what is generated.** The two
descriptions differ in their targets only, and whichever of them is emitted, so is the other: as
the same artifacts, perhaps in another order. -/
theorem emitPlanned_perm (ctx : Context) {ts ts' : List Target}
    (same : SameTargets (ctx.withTargets ts).api.effectiveTargets
      (ctx.withTargets ts').api.effectiveTargets) :
    (∀ artifacts, emitPlanned (ctx.withTargets ts) = .ok artifacts →
      ∃ artifacts', emitPlanned (ctx.withTargets ts') = .ok artifacts' ∧
        artifacts.Perm artifacts') ∧
    ∀ artifacts', emitPlanned (ctx.withTargets ts') = .ok artifacts' →
      ∃ artifacts, emitPlanned (ctx.withTargets ts) = .ok artifacts ∧
        artifacts.Perm artifacts' := by
  have hplan := plan_perm same ctx.api.metadata.language
  have hartifacts := artifacts_eq_of_sameTargets same
  refine ⟨fun artifacts h => emitAll_perm hplan hartifacts h, fun artifacts' h => ?_⟩
  obtain ⟨artifacts, hrun, hperm⟩ := emitAll_perm hplan.symm (fun e => (hartifacts e).symm) h
  exact ⟨artifacts, hrun, hperm.symm⟩

/-- All targets by default, and all targets backwards with one of them twice. -/
theorem emitPlanned_perm_shelf :
    SameTargets (shelfContext.withTargets []).api.effectiveTargets
        (shelfContext.withTargets (.web :: Target.all.reverse)).api.effectiveTargets ∧
      ∃ artifacts artifacts', emitPlanned (shelfContext.withTargets []) = .ok artifacts ∧
        emitPlanned (shelfContext.withTargets (.web :: Target.all.reverse)) = .ok artifacts' ∧
        artifacts.Perm artifacts' := by
  have same : SameTargets (shelfContext.withTargets []).api.effectiveTargets
      (shelfContext.withTargets (.web :: Target.all.reverse)).api.effectiveTargets := by
    intro t
    cases t <;> decide
  obtain ⟨artifacts, hrun⟩ := exists_artifacts_shelf
  obtain ⟨artifacts', hrun', hperm⟩ := (emitPlanned_perm shelfContext same).1 artifacts hrun
  exact ⟨same, artifacts, artifacts', hrun, hrun', hperm⟩

end Bindery
