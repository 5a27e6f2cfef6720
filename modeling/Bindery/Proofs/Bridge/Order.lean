import Bindery.Proofs.Bridge.Records
import Bindery.Proofs.Nesting.Order
import Bindery.Proofs.Schema.Comments

/-!
# The order of the helpers

The records that operations return are built by helpers, and those that are passed are filled
and released by helpers. In the C file these stand one behind the other in the order of the
closures. What a helper calls is known from its body, and what the closure has in front of a
record is known from the walk that writes it. Both meet in what a record holds:

* `calls_helperName_iff` — a helper calls, of all helpers, those of the same kind of the records
  that its record holds;
* `inTurn_keys` — these stand in front of it where no record holds itself;
* `helpers_in_order` — so in every file that is emitted a helper is defined in front of those
  that call it.
-/

namespace Bindery.Kotlin

open Relation

variable {ctx : Context} {source : Source} {file : BridgeFile}

/-! ### What a helper calls -/

theorem not_foreign_helperName (kind : HelperKind) (n : String) :
    ¬ Foreign (helperName kind n) := by
  have hends : kind.ending.toList <:+ (helperName kind n).toList := by
    rw [helperName, String.toList_append]
    exact List.suffix_append _ _
  intro hforeign
  cases kind with
  | toJava | fromJava => exact hforeign.java (.trans (by decide) hends)
  | release => exact hforeign.release (.trans (by decide) hends)

/-- The helpers of the records inside are those of what the record holds. -/
theorem mem_innerHelpers_iff {n : String} {d : TypeDef} (hd : ctx.types.get? n = some d)
    (hrec : d.isRecord = true) (typed : ∀ f ∈ d.fields, HasJvmType ctx.types f.type)
    {kind : HelperKind} {name : String} :
    name ∈ d.fields.flatMap (innerHelpers ctx kind) ↔
      ∃ m, ctx.types.Holds n m ∧ name = helperName kind m := by
  simp only [innerHelpers, inner?, List.mem_flatMap, List.mem_map, Option.mem_toList,
    Option.filter_eq_some_iff]
  constructor
  · rintro ⟨f, hf, m, ⟨href, hnoEnum⟩, rfl⟩
    -- the field has a type, and it is no enumeration
    have htype := typed f hf
    rw [Field.reference?_eq_some_iff.mp href] at htype
    have hmrec : ctx.types.isRecord m = true := by
      refine htype.resolve_left fun henum => ?_
      rw [Context.isEnum, henum] at hnoEnum
      cases hnoEnum
    exact ⟨m, ⟨d, hd, hrec, List.mem_filterMap.mpr ⟨f, hf, href⟩, hmrec⟩, rfl⟩
  · rintro ⟨m, ⟨d', hd', -, hmem, hmrec⟩, rfl⟩
    obtain rfl := Option.some.inj (hd.symm.trans hd')
    obtain ⟨f, hf, href⟩ := List.mem_filterMap.mp hmem
    refine ⟨f, hf, m, ⟨href, ?_⟩, rfl⟩
    rw [Context.isEnum, Schema.isEnum_eq_false_of_isRecord hmrec]
    rfl

section Emitted

variable (hsource : Source.ofContext ctx = .ok source)
  (hfile : BridgeFile.ofContext ctx = .ok file)

include hsource

/-- What is known of a record with a data class. -/
theorem exists_typed {n : String} (hn : Crosses ctx n) :
    ∃ d, ctx.types.get? n = some d ∧ d.isRecord = true ∧
      ∀ f ∈ d.fields, HasJvmType ctx.types f.type := by
  obtain ⟨d, hd, hrec⟩ := Schema.isRecord_iff.mp hn.1
  obtain ⟨c, -, hclass⟩ := exists_dataClass hsource hn
  exact ⟨d, hd, hrec, (succeeds_dataClass_iff hd).mp ⟨c, hclass⟩⟩

include hfile

/-- The body of each helper calls those of the records inside. -/
theorem callsOf_helper (types : ctx.types.WellNamed) (api : IsWord ctx.apiName) {h : Helper}
    (hh : h ∈ file.helpers ctx) :
    ∃ d, ctx.types.get? h.record = some d ∧ d.isRecord = true ∧
      (∀ f ∈ d.fields, HasJvmType ctx.types f.type) ∧
      CallsOf h.body (d.fields.flatMap (innerHelpers ctx h.kind)) := by
  obtain ⟨hbuilders, hreaders, -⟩ := exists_of_bridgeFile hfile
  rcases List.mem_append.mp hh with hh | hh
  · obtain ⟨b, hb, rfl⟩ := List.mem_map.mp hh
    obtain ⟨n, hn, hmade⟩ := exists_mem_of_forall₂ (mapM_eq_ok_iff.mp hbuilders).flip hb
    obtain ⟨d, hd, hrec, typed⟩ := exists_typed hsource (crosses_of_mem (.inl hn))
    obtain ⟨hname, hwell⟩ := types _ (Keyed.get?_eq_some_iff.mp hd)
    have hcalls := callsOf_toJava (typeDef_eq_ok_iff.mpr hd) hwell.fields api hname.isDotted typed
      hmade
    obtain rfl := (exists_of_toJava hmade).1
    exact ⟨d, hd, hrec, typed, hcalls⟩
  · obtain ⟨r, hr, hh⟩ := List.mem_flatMap.mp hh
    obtain ⟨n, hn, hmade⟩ := exists_mem_of_forall₂ (mapM_eq_ok_iff.mp hreaders).flip hr
    obtain ⟨d, hd, hrec, typed⟩ := exists_typed hsource (crosses_of_mem (.inr hn))
    obtain ⟨-, hwell⟩ := types _ (Keyed.get?_eq_some_iff.mp hd)
    -- what is read is released by a second helper
    have hreader := callsOf_reader (typeDef_eq_ok_iff.mpr hd) hwell.fields api typed hmade
    have hreleaser := callsOf_releaser (typeDef_eq_ok_iff.mpr hd) hwell.fields hmade
    obtain rfl := (exists_of_fromJava hmade).1
    rcases List.mem_pair.mp hh with rfl | rfl
    · exact ⟨d, hd, hrec, typed, hreader⟩
    · exact ⟨d, hd, hrec, typed, hreleaser⟩

/-- **What a helper calls**: of all helpers those of its own kind, of the records that its record
holds. -/
theorem calls_helperName_iff (types : ctx.types.WellNamed) (api : IsWord ctx.apiName) {h : Helper}
    (hh : h ∈ file.helpers ctx) (kind : HelperKind) (n : String) :
    h.Calls (helperName kind n) ↔
      ∃ m, ctx.types.Holds h.record m ∧ helperName kind n = helperName h.kind m := by
  obtain ⟨d, hd, hrec, typed, hcalls⟩ := callsOf_helper hsource hfile types api hh
  rw [← mem_innerHelpers_iff hd hrec typed]
  constructor
  · rintro ⟨l, hl, hcalled⟩
    exact (hcalls.only l hl _ hcalled).resolve_left (not_foreign_helperName kind n)
  · exact hcalls.all _

end Emitted

/-! ### Where the helpers stand -/

/-- What a helper does, and with which record. -/
def Helper.key (h : Helper) : HelperKind × String := (h.kind, h.record)

/-- The helpers that there are. -/
def helperKeys (ctx : Context) : List (HelperKind × String) :=
  ((returnedRecords ctx).flatMap fun n => [(.toJava, n)])
    ++ (passedRecords ctx).flatMap fun n => [(.fromJava, n), (.release, n)]

theorem map_key_helpers (hfile : BridgeFile.ofContext ctx = .ok file) :
    (file.helpers ctx).map Helper.key = helperKeys ctx := by
  obtain ⟨hbuilders, hreaders, -⟩ := exists_of_bridgeFile hfile
  -- A helper is named for its record, so the keys follow the records.
  have hreturned : file.builders.map (·.record) = returnedRecords ctx := by
    rw [map_eq_map_of_forall₂ (mapM_eq_ok_iff.mp hbuilders) fun n b hb => (exists_of_toJava hb).1]
    exact List.map_id _
  have hpassed : file.readers.map (·.record) = passedRecords ctx := by
    rw [map_eq_map_of_forall₂ (mapM_eq_ok_iff.mp hreaders) fun n r hr => (exists_of_fromJava hr).1]
    exact List.map_id _
  rw [BridgeFile.helpers, helperKeys, ← hreturned, ← hpassed, List.map_append, List.map_map,
    List.map_flatMap, List.flatMap_map, List.flatMap_map, ← List.map_eq_flatMap]
  rfl

/-- The helpers of the same kind, of what the record holds, are in front. -/
def Supplied (ctx : Context) (front : List (HelperKind × String)) (key : HelperKind × String) :
    Prop :=
  ∀ m, ctx.types.Holds key.2 m → (key.1, m) ∈ front

/-- **No record that crosses holds itself**, directly or through others: no cycle can be reached
from the types of the description. -/
def NoneHoldsItself (ctx : Context) : Prop := ∀ n, Crosses ctx n → ¬ TransGen ctx.types.Holds n n

/-- **Helpers stand behind those of what their records hold.** -/
theorem inTurn_keys (acyclic : NoneHoldsItself ctx) :
    InTurn (Supplied ctx) [] (helperKeys ctx) := by
  have hreturned := Schema.inTurn_recordClosure fun n hn => acyclic n (crosses_of_mem (.inl hn))
  have hpassed := Schema.inTurn_recordClosure fun n hn => acyclic n (crosses_of_mem (.inr hn))
  -- A builder needs the builders alone, so the first part stands for itself.
  have hbuilders : InTurn (Supplied ctx) ([] ++ [].flatMap fun n => [(.toJava, n)])
      ((returnedRecords ctx).flatMap fun n => [(.toJava, n)]) := by
    refine hreturned.flatMap fun front n _ held => inTurn_singleton.mpr fun m hm => ?_
    exact List.mem_flatMap.mpr ⟨m, held m hm, List.mem_singleton_self _⟩
  -- A reader needs readers and a release needs releases; both come with their record, whatever
  -- stands before the second part.
  have hreaders (first : List (HelperKind × String)) :
      InTurn (Supplied ctx) (first ++ [].flatMap fun n => [(.fromJava, n), (.release, n)])
        ((passedRecords ctx).flatMap fun n => [(.fromJava, n), (.release, n)]) := by
    refine hpassed.flatMap fun front n _ held => ?_
    have hpair : ∀ m, ctx.types.Holds n m → ∀ key ∈ [(HelperKind.fromJava, m), (.release, m)],
        key ∈ first ++ front.flatMap fun n => [(.fromJava, n), (.release, n)] :=
      fun m hm key hkey => List.mem_append_right _ (List.mem_flatMap.mpr ⟨m, held m hm, hkey⟩)
    refine ⟨fun m hm => hpair m hm _ List.mem_cons_self, fun m hm => ?_, trivial⟩
    exact List.mem_append_left _ (hpair m hm _ (List.mem_cons_of_mem _ List.mem_cons_self))
  refine inTurn_append.mpr ⟨hbuilders, ?_⟩
  rw [← List.append_nil ([] ++ _)]
  exact hreaders _

/-! ### The file -/

/-- **The helpers are in order.** -/
structure HelpersInOrder (ctx : Context) (helpers : List Helper) : Prop where
  /-- Records that are returned are built, and those that are passed are filled and released. -/
  keys : helpers.map Helper.key = helperKeys ctx
  /-- What a record holds has its helpers in front of those of the record. -/
  supplied : NoneHoldsItself ctx → ∀ before h behind, helpers = before ++ h :: behind →
    ∀ m, ctx.types.Holds h.record m → helperName h.kind m ∈ before.map Helper.name

theorem helpersInOrder (hfile : BridgeFile.ofContext ctx = .ok file) :
    HelpersInOrder ctx (file.helpers ctx) where
  keys := map_key_helpers hfile
  supplied acyclic before h behind hsplit m hm := by
    have hkeys : helperKeys ctx = before.map Helper.key ++ h.key :: behind.map Helper.key := by
      rw [← map_key_helpers hfile, hsplit, List.map_append, List.map_cons]
    have hinTurn := inTurn_keys acyclic
    rw [hkeys] at hinTurn
    obtain ⟨g, hg, hkey⟩ := List.mem_map.mp (hinTurn.of_split m hm)
    obtain ⟨hkind, hrecord⟩ : g.kind = h.kind ∧ g.record = m := Prod.mk.inj hkey
    refine List.mem_map.mpr ⟨g, hg, ?_⟩
    rw [Helper.name, hkind, hrecord]

/-- **The calls of helpers are in order.** -/
structure CallsInOrder (ctx : Context) (helpers : List Helper) : Prop where
  /-- A helper calls those of its own kind of what its record holds, and no others. -/
  calls : ∀ h ∈ helpers, ∀ kind n, h.Calls (helperName kind n) ↔
    ∃ m, ctx.types.Holds h.record m ∧ helperName kind n = helperName h.kind m
  /-- What a helper calls is defined in front of it. -/
  defined : NoneHoldsItself ctx → ∀ before h behind, helpers = before ++ h :: behind →
    ∀ kind n, h.Calls (helperName kind n) → helperName kind n ∈ before.map Helper.name

theorem callsInOrder (hsource : Source.ofContext ctx = .ok source)
    (hfile : BridgeFile.ofContext ctx = .ok file) (types : ctx.types.WellNamed)
    (api : IsWord ctx.apiName) : CallsInOrder ctx (file.helpers ctx) where
  calls _ hh := calls_helperName_iff hsource hfile types api hh
  defined acyclic before h behind hsplit kind n hcalls := by
    have hh : h ∈ file.helpers ctx := by
      rw [hsplit]
      exact List.mem_append_right _ List.mem_cons_self
    obtain ⟨m, hm, hname⟩ := (calls_helperName_iff hsource hfile types api hh kind n).mp hcalls
    rw [hname]
    exact (helpersInOrder hfile).supplied acyclic before h behind hsplit m hm

/-- **The closure is in order, and so are the helpers.** In every schema the closure of any roots
has the records that can be reached, each once, and where no cycle can be reached each behind all
that it holds. The C file of a description that is emitted has the helpers of the two closures
in this order. If the schema was read, the texts of the helpers call each other as the records
hold each other; so, where no record that crosses holds itself, every helper is defined in front
of those that call it. -/
theorem helpers_in_order :
    (∀ types roots, Schema.IsClosure types roots (types.recordClosure roots)) ∧
    ∀ ctx artifacts, Kotlin.emit ctx = .ok artifacts →
      ∃ kt file, BridgeFile.ofContext ctx = .ok file ∧
        artifacts = [kt, ctx.generatedFile (ctx.apiName ++ "_jni.c") Code.fourBlanks
          (BridgeFile.beginning ctx ++ (file.helpers ctx).flatMap Helper.lines ++ file.rest)] ∧
        HelpersInOrder ctx (file.helpers ctx) ∧
        (isSnakeIdentifier ctx.apiName = true → ctx.types.IsRead →
          CallsInOrder ctx (file.helpers ctx)) := by
  refine ⟨Schema.isClosure_recordClosure, fun ctx artifacts hemit => ?_⟩
  obtain ⟨source, hsource, hemit⟩ := bind_eq_ok_iff.mp hemit
  obtain ⟨file, hfile, hemit⟩ := bind_eq_ok_iff.mp hemit
  obtain rfl := pure_eq_ok_iff.mp hemit
  rw [BridgeFile.lines_eq]
  refine ⟨_, file, hfile, rfl, helpersInOrder hfile, fun hname hread => ?_⟩
  exact callsInOrder hsource hfile hread.wellNamed (isPlain_of_isSnakeIdentifier hname).isWord

/-! ### Records inside of records -/

def figureText : String :=
  "struct Dot \x7b x: float; \x7d\nstruct Side \x7b from: Dot; to: Dot; \x7d\n"
    ++ "table Figure \x7b base: Side; label: string; \x7d\n"

/-- A description that passes and returns a record with others inside, two levels deep. -/
def figureContext : Context where
  api :=
    { metadata := { name := "demo", version := "1.0.0", language := .rust }
      schemas := ["demo.fbs"]
      interfaces := [
        { name := "figure"
          methods := [
            { name := "turn", parameters := [⟨"figure", "Figure", some .ref, none⟩]
              returns := some { type := "Figure" } }] }] }
  types := ((Keyed.empty.insert "Dot"
      { kind := .struct, fields := [⟨"x", .primitive .float32⟩] }).insert
    "Side" { kind := .struct, fields := [⟨"from", .named "Dot"⟩, ⟨"to", .named "Dot"⟩] }).insert
    "Figure" { kind := .table, fields := [⟨"base", .named "Side"⟩, ⟨"label", .string⟩] }

theorem figure_read : figureContext.types.IsRead := by
  have hdefinitions : Schema.definitionsIn figureText =
      [("Dot", { kind := .struct, fields := [⟨"x", .primitive .float32⟩] }),
        ("Side", { kind := .struct, fields := [⟨"from", .named "Dot"⟩, ⟨"to", .named "Dot"⟩] }),
        ("Figure", { kind := .table, fields := [⟨"base", .named "Side"⟩, ⟨"label", .string⟩] })] := by
    unfold figureText
    rw [Schema.definitionsIn_eq, String.toList_append, String.toList_ofList, String.toList_ofList]
    decide +kernel
  have hparse : Schema.parse figureText = .ok figureContext.types := by
    rw [Schema.parse, hdefinitions]
    rfl
  exact .text hparse

theorem noneHoldsItself_figure : NoneHoldsItself figureContext := by
  -- what a record holds stands further to the front in this list
  let rank (n : String) : Nat := ["Dot", "Side", "Figure"].idxOf n
  have hfields : ∀ e ∈ figureContext.types.entries, ∀ m ∈ e.2.fields.filterMap Field.reference?,
      rank m < rank e.1 := by decide
  have hstep : ∀ n m, figureContext.types.Holds n m → rank n > rank m := by
    rintro n m ⟨d, hd, -, hm, -⟩
    exact hfields (n, d) (Keyed.get?_eq_some_iff.mp hd) m hm
  intro n _ hcycle
  have hdescent : TransGen (· > ·) (rank n) (rank n) := hcycle.lift rank hstep
  rw [transGen_eq_self] at hdescent
  exact lt_irrefl _ hdescent

theorem helpers_in_order_figure :
    figureContext.types.recordClosure ["Figure"] = ["Dot", "Side", "Figure"] ∧
      figureContext.types.IsClosure ["Figure"] (figureContext.types.recordClosure ["Figure"]) ∧
      figureContext.types.IsRead ∧ NoneHoldsItself figureContext ∧
      helperKeys figureContext = [(.toJava, "Dot"), (.toJava, "Side"), (.toJava, "Figure"),
        (.fromJava, "Dot"), (.release, "Dot"), (.fromJava, "Side"), (.release, "Side"),
        (.fromJava, "Figure"), (.release, "Figure")] ∧
      ∃ kt file, BridgeFile.ofContext figureContext = .ok file ∧
        Kotlin.emit figureContext = .ok [kt, figureContext.generatedFile "demo_jni.c" Code.fourBlanks
          (BridgeFile.beginning figureContext ++ (file.helpers figureContext).flatMap Helper.lines
            ++ file.rest)] ∧
        HelpersInOrder figureContext (file.helpers figureContext) ∧
        CallsInOrder figureContext (file.helpers figureContext) := by
  have hvalid : figureContext.api.validate (some figureContext.types) = [] := by decide
  have htypes : ∀ e ∈ figureContext.types.entries, ∀ f ∈ e.2.fields,
      HasJvmType figureContext.types f.type := by decide
  obtain ⟨artifacts, hemit⟩ := (succeeds_emit_iff (Validate.conforms_of_validate hvalid)).mpr
    fun n d _ hd => htypes (n, d) (Keyed.get?_eq_some_iff.mp hd)
  obtain ⟨kt, file, hfile, rfl, horder, hcalls⟩ := helpers_in_order.2 figureContext artifacts hemit
  exact ⟨by cbv, helpers_in_order.1 _ _, figure_read, noneHoldsItself_figure, by cbv, kt, file,
    hfile, hemit, horder, hcalls (by decide) figure_read⟩

end Bindery.Kotlin
