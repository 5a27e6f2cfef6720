import Bindery.Proofs.Callers
import Bindery.Proofs.Emission.Kotlin
import Bindery.Proofs.Symbols

/-!
# One function for each operation

The Kotlin and the Swift binding walk through the operations several times: once for each
handle, to collect what lives on its class, and once more for what lives on no class. The
filters of these walks are written one by one, so it takes an argument that together they
leave nothing out and take nothing twice.

The argument is the same for both bindings (`perm_placed`). Operations are told apart by
the handle that they belong to. Those of the declared handles, class by class, and those
of no declared handle are a permutation of them all, as declared handles are distinct. In
a valid description an operation that belongs to a handle belongs to a declared one, so
what is left over belongs to none.

A list of things is compared with a list of operations by `OneForEach`: the things were
made for the operations, one for each, in whatever order they stand. The main statements
are

* `Kotlin.forall₂_externals` and `Kotlin.forall₂_functions` — the declarations of the object
  and the functions of the bridge follow the operations in order, one by one;
* `Kotlin.oneForEach_wrappers` and `Swift.oneForEach_functions` — public functions, each
  with the class that it stands on.
-/

namespace Bindery

open Validate

/-! ### Things made for operations -/

/-- **One for each**: the things were made for the members of a list, one for each of them
and none besides, in whatever order they stand. There are as many things as members, so what was made
alike for two members stands there twice; whether a thing is the only one of its name is a question
of its own (`exists_filter_iff`). -/
def OneForEach {α β : Type} (made : α → β → Prop) (xs : List α) (ys : List β) : Prop :=
  ∃ order : List α, order.Perm xs ∧ List.Forall₂ made order ys

theorem OneForEach.of_forall₂ {α β : Type} {made : α → β → Prop} {xs : List α} {ys : List β}
    (h : List.Forall₂ made xs ys) : OneForEach made xs ys :=
  ⟨xs, List.Perm.refl xs, h⟩

/-- **Members sorted by their places.** The members that are kept and have one of the
places, place by place, and those that are kept and have none of them, are all members
that are kept. -/
theorem perm_placed {α : Type} {xs : List α} (hxs : xs.Nodup) {places : List String}
    (hplaces : places.Nodup) (keep : α → Bool) (place : α → Option String) :
    (places.flatMap (fun p => xs.filter fun x => keep x && place x == some p) ++
        xs.filter fun x => keep x && !((place x).any fun p => places.contains p)).Perm
      (xs.filter keep) := by
  -- no member is listed twice, so it is enough to compare who is there
  have hnodup : (places.flatMap (fun p => xs.filter fun x => keep x && place x == some p) ++
      xs.filter fun x => keep x && !((place x).any fun p => places.contains p)).Nodup := by
    rw [List.nodup_append', List.nodup_flatMap]
    refine ⟨⟨fun p _ => hxs.filter _, ?_⟩, hxs.filter _, ?_⟩
    · -- a member has one place only
      refine hplaces.imp fun {p q} hne x hp hq => ?_
      have hp' := (Bool.and_eq_true_iff.mp (List.mem_filter.mp hp).2).2
      have hq' := (Bool.and_eq_true_iff.mp (List.mem_filter.mp hq).2).2
      rw [beq_iff_eq] at hp' hq'
      exact hne (Option.some.inj (hp'.symm.trans hq'))
    · -- what has one of the places is not among the rest
      intro x hx hrest
      obtain ⟨p, hp, hx⟩ := List.mem_flatMap.mp hx
      have hplace := (Bool.and_eq_true_iff.mp (List.mem_filter.mp hx).2).2
      have hnone := (Bool.and_eq_true_iff.mp (List.mem_filter.mp hrest).2).2
      rw [beq_iff_eq] at hplace
      rw [hplace, Option.any_some, List.contains_iff_mem.mpr hp] at hnone
      exact absurd hnone (by decide)
  rw [List.perm_ext_iff_of_nodup hnodup (hxs.filter _)]
  intro x
  simp only [List.mem_append, List.mem_flatMap, List.mem_filter, Bool.and_eq_true, beq_iff_eq]
  constructor
  · rintro (⟨p, -, hx, hkeep, -⟩ | ⟨hx, hkeep, -⟩)
    · exact ⟨hx, hkeep⟩
    · exact ⟨hx, hkeep⟩
  · rintro ⟨hx, hkeep⟩
    rcases hplace : place x with _ | p
    · exact .inr ⟨hx, hkeep, rfl⟩
    · by_cases hp : p ∈ places
      · exact .inl ⟨p, hp, hx, hkeep, rfl⟩
      · exact .inr ⟨hx, hkeep, by simpa using hp⟩

/-! ### Operations of a valid description -/

/-- The operations that a description writes, which is all of them but the destructors. -/
def Api.written (a : Api) : List Operation :=
  a.operations.filter fun op => op.kind ≠ .destructor

theorem nodup_operations {a : Api} {types : Option Schema} (h : Conforms a types) :
    a.operations.Nodup :=
  (nodup_keys h).of_map _

/-- The operations of one interface are a stretch of those of the description. -/
theorem nodup_operations_of_mem {a : Api} {types : Option Schema} (h : Conforms a types)
    {i : Interface} (hi : i ∈ a.interfaces) : i.operations.Nodup := by
  have hops := nodup_operations h
  rw [Api.operations, List.flatMap_def] at hops
  exact hops.sublist (List.sublist_flatten_of_mem (List.mem_map_of_mem hi))

/-- Constructors and methods are what a description writes. -/
theorem perm_written (a : Api) :
    (a.operations.filter (fun op => op.kind = .constructor) ++
      a.operations.filter fun op => op.kind = .method).Perm a.written := by
  have hsplit := List.filter_append_perm (fun op => decide (op.kind = .constructor)) a.written
  unfold Api.written at hsplit ⊢
  rw [List.filter_filter, List.filter_filter] at hsplit
  -- what is no destructor and no constructor is a method
  have hconstructor : ∀ op ∈ a.operations,
      (decide (op.kind = .constructor) && decide (op.kind ≠ .destructor)) =
        decide (op.kind = .constructor) := by
    intro op _
    cases op.kind <;> rfl
  have hmethod : ∀ op ∈ a.operations,
      (!decide (op.kind = .constructor) && decide (op.kind ≠ .destructor)) =
        decide (op.kind = .method) := by
    intro op _
    cases op.kind <;> rfl
  rwa [List.filter_congr hconstructor, List.filter_congr hmethod] at hsplit

/-- A handle that a valid operation takes in front is declared. -/
theorem mem_handles_of_leadingHandle? {a : Api} {types : Option Schema} (h : Conforms a types)
    {op : Operation} (hop : op ∈ a.operations) {handle : String}
    (hleading : op.method.leadingHandle? = some handle) : handle ∈ a.handles.map (·.name) := by
  have hs := namedInPascalCase_of_handles types h.handlesPascal
  obtain ⟨p, rest, hparameters, href⟩ := Swift.exists_of_leadingHandle? hleading
  have hp : p ∈ op.method.parameters := by
    rw [hparameters]
    exact List.mem_cons_self
  obtain ⟨t, ht, hadmits⟩ := ((methodOk_of_mem_operations h hop).parameters p hp).exists_typeRef hs
  rw [Parameter.typeRef?, ht] at href
  obtain rfl := Option.some.inj href
  exact hadmits

/-- A constructor of a valid description returns a handle that is declared. -/
theorem exists_returnedHandle? {a : Api} {types : Option Schema} (h : Conforms a types)
    {op : Operation} (hop : op ∈ a.operations) (hkind : op.kind = .constructor) :
    ∃ handle ∈ a.handles.map (·.name), op.method.returnedHandle? = some handle := by
  have hs := namedInPascalCase_of_handles types h.handlesPascal
  obtain ⟨i, hi, hop⟩ := List.mem_flatMap.mp hop
  rcases mem_operations_iff.mp hop with ⟨c, hc, rfl⟩ | ⟨_, -, rfl⟩ | ⟨_, -, rfl⟩
  · have hok := (h.interfaces i hi).constructors c hc
    obtain ⟨handle, hmakes⟩ := hok.makes
    exact ⟨handle, mem_handles_of_makes hok.toMethodOk hmakes hs,
      returnedHandle?_of_makes hs hok.toMethodOk hmakes⟩
  · cases hkind
  · cases hkind

/-- The test of the emitters for a declared handle. -/
theorem any_handles_eq (a : Api) (h : String) :
    (a.handles.any fun handle => handle.name = h) = (a.handles.map (·.name)).contains h := by
  rw [Bool.eq_iff_iff, List.any_eq_true, List.contains_iff_mem, List.mem_map]
  simp only [decide_eq_true_eq]

/-- A valid method that is on no declared handle takes no handle in front. -/
theorem leadingHandle?_eq_none {a : Api} {types : Option Schema} (h : Conforms a types)
    {op : Operation} (hop : op ∈ a.operations)
    (htest : (!(op.method.leadingHandle?.any fun handle =>
      a.handles.any fun declared => declared.name = handle)) = true) :
    op.method.leadingHandle? = none := by
  rw [Option.eq_none_iff_forall_ne_some]
  intro handle hhandle
  have hdeclared := mem_handles_of_leadingHandle? h hop hhandle
  rw [hhandle, Option.any_some, any_handles_eq, List.contains_iff_mem.mpr hdeclared] at htest
  exact absurd htest (by decide)

/-! ### The Kotlin binding -/

namespace Kotlin

variable {ctx : Context}

/-- What the Kotlin file is made of. -/
theorem exists_of_source {source : Source} (h : Source.ofContext ctx = .ok source) :
    source.errors = ctx.api.errorTypes ∧
      (Source.recordNames ctx).mapM (DataClass.ofRecord ctx) = .ok source.records ∧
      ctx.api.handles.mapM (HandleClass.ofHandle ctx) = .ok source.classes ∧
      ApiObject.ofApi ctx = .ok source.object := by
  obtain ⟨records, hrecords, h⟩ := bind_eq_ok_iff.mp h
  obtain ⟨classes, hclasses, h⟩ := bind_eq_ok_iff.mp h
  obtain ⟨object, hobject, h⟩ := bind_eq_ok_iff.mp h
  obtain rfl := pure_eq_ok_iff.mp h
  exact ⟨rfl, hrecords, hclasses, hobject⟩

/-- What the object of the native functions is made of. -/
theorem exists_of_object {object : ApiObject} (h : ApiObject.ofApi ctx = .ok object) :
    (ctx.api.operations.filter fun op => op.kind = .constructor).mapM
        (Wrapper.ofOperation ctx false) = .ok object.constructors ∧
      (ctx.api.operations.filter fun op =>
          op.kind = .method && !ApiObject.isOnHandle ctx.api op).mapM
        (Wrapper.ofOperation ctx false) = .ok object.functions ∧
      ctx.api.operations.mapM (ExternalFun.ofOperation ctx) = .ok object.externals := by
  obtain ⟨constructors, hconstructors, h⟩ := bind_eq_ok_iff.mp h
  obtain ⟨functions, hfunctions, h⟩ := bind_eq_ok_iff.mp h
  obtain ⟨externals, hexternals, h⟩ := bind_eq_ok_iff.mp h
  obtain rfl := pure_eq_ok_iff.mp h
  exact ⟨hconstructors, hfunctions, hexternals⟩

/-- What the class of a handle is made of. -/
theorem exists_of_handleClass {handle : Handle} {c : HandleClass}
    (h : HandleClass.ofHandle ctx handle = .ok c) :
    c.handle = handle ∧ c.close = HandleClass.closeOf ctx.api handle.name ∧
      (HandleClass.operations ctx.api handle.name).mapM (Wrapper.ofOperation ctx true) =
        .ok c.wrappers := by
  obtain ⟨wrappers, hwrappers, h⟩ := bind_eq_ok_iff.mp h
  obtain rfl := pure_eq_ok_iff.mp h
  exact ⟨rfl, rfl, hwrappers⟩

/-- The functions of the C file. -/
def BridgeFile.functions (file : BridgeFile) : List Bridge := file.bridges.flatMap (·.2)

/-- What the C file is made of. -/
theorem exists_of_bridgeFile {file : BridgeFile} (h : BridgeFile.ofContext ctx = .ok file) :
    (returnedRecords ctx).mapM (ToJava.ofRecord ctx) = .ok file.builders ∧
      (passedRecords ctx).mapM (FromJava.ofRecord ctx) = .ok file.readers ∧
      ctx.api.operations.mapM (Bridge.ofOperation ctx) = .ok file.functions := by
  obtain ⟨builders, hbuilders, h⟩ := bind_eq_ok_iff.mp h
  obtain ⟨readers, hreaders, h⟩ := bind_eq_ok_iff.mp h
  obtain ⟨bridges, hbridges, h⟩ := bind_eq_ok_iff.mp h
  obtain rfl := pure_eq_ok_iff.mp h
  refine ⟨hbuilders, hreaders, mapM_eq_ok_iff.mpr ?_⟩
  -- interface by interface the bridges follow the operations
  refine List.rel_flatMap (mapM_eq_ok_iff.mp hbridges) fun i e he => ?_
  obtain ⟨bs, hbs, he⟩ := bind_eq_ok_iff.mp he
  obtain rfl := pure_eq_ok_iff.mp he
  exact mapM_eq_ok_iff.mp hbs

/-- **The public functions of the Kotlin file**, each with the class that it stands on. Those
of the object stand on none. -/
def Source.wrappers (source : Source) : List (Option String × Wrapper) :=
  source.classes.flatMap (fun c => c.wrappers.map (some c.handle.name, ·))
    ++ (source.object.constructors ++ source.object.functions).map (none, ·)

/-- **The wrapper of an operation, in its place.** -/
structure Wraps (ctx : Context) (op : Operation) (w : Option String × Wrapper) : Prop where
  /-- A method on a handle stands on the class of the handle, all else on the object. -/
  place : w.1 = if op.kind = .method then op.method.leadingHandle? else none
  made : Wrapper.ofOperation ctx w.1.isSome op = .ok w.2
  /-- What it calls is the native function of the operation. -/
  callee : w.2.callee =
    if w.1.isSome then objectName ctx ++ "." ++ bridgeName op else bridgeName op

/-- What a wrapper calls and what it does with the result. -/
theorem exists_of_wrapper {onHandle : Bool} {op : Operation} {w : Wrapper}
    (h : Wrapper.ofOperation ctx onHandle op = .ok w) :
    w.callee = (if onHandle then objectName ctx ++ "." ++ bridgeName op else bridgeName op) ∧
      ∃ ret, JvmType.ofReturn ctx op.method = .ok ret ∧
        Wrapper.outcomeOf op.method.error ret = .ok w.outcome := by
  obtain ⟨params, -, h⟩ := bind_eq_ok_iff.mp h
  obtain ⟨ret, hret, h⟩ := bind_eq_ok_iff.mp h
  obtain ⟨outcome, houtcome, h⟩ := bind_eq_ok_iff.mp h
  obtain rfl := pure_eq_ok_iff.mp h
  exact ⟨rfl, ret, hret, houtcome⟩

/-- Wrappers of operations of one place are their wrappers in this place. -/
theorem forall₂_wraps {ops : List Operation} {place : Option String} {wrappers : List Wrapper}
    (hops : ∀ op ∈ ops, (if op.kind = .method then op.method.leadingHandle? else none) = place)
    (h : ops.mapM (Wrapper.ofOperation ctx place.isSome) = .ok wrappers) :
    List.Forall₂ (Wraps ctx) ops (wrappers.map (place, ·)) := by
  rw [List.forall₂_map_right_iff]
  refine forall₂_imp_of_mem (mapM_eq_ok_iff.mp h) fun op hop w hw => ?_
  exact ⟨(hops op hop).symm, hw, (exists_of_wrapper hw).1⟩

/-- The wrappers on the classes, class by class. -/
theorem forall₂_classWrappers {source : Source} (h : Source.ofContext ctx = .ok source) :
    List.Forall₂ (Wraps ctx)
      (ctx.api.handles.flatMap fun handle => HandleClass.operations ctx.api handle.name)
      (source.classes.flatMap fun c => c.wrappers.map (some c.handle.name, ·)) := by
  obtain ⟨-, -, hclasses, -⟩ := exists_of_source h
  refine List.rel_flatMap (mapM_eq_ok_iff.mp hclasses) fun handle c hc => ?_
  obtain ⟨rfl, -, hwrappers⟩ := exists_of_handleClass hc
  refine forall₂_wraps (fun op hop => ?_) hwrappers
  obtain ⟨hkind, hleading⟩ : op.kind = .method ∧
      op.method.leadingHandle? = some c.handle.name := by
    simpa using (List.mem_filter.mp hop).2
  rw [if_pos hkind, hleading]

/-- The wrappers on the object. -/
theorem forall₂_objectWrappers (valid : Conforms ctx.api (some ctx.types)) {source : Source}
    (h : Source.ofContext ctx = .ok source) :
    List.Forall₂ (Wraps ctx)
      ((ctx.api.operations.filter fun op => op.kind = .constructor) ++
        ctx.api.operations.filter fun op => op.kind = .method && !ApiObject.isOnHandle ctx.api op)
      ((source.object.constructors ++ source.object.functions).map (none, ·)) := by
  obtain ⟨-, -, -, hobject⟩ := exists_of_source h
  obtain ⟨hconstructors, hfunctions, -⟩ := exists_of_object hobject
  rw [List.map_append]
  refine List.rel_append (forall₂_wraps (fun op hop => ?_) hconstructors)
    (forall₂_wraps (fun op hop => ?_) hfunctions)
  · have hkind : op.kind = .constructor := by simpa using (List.mem_filter.mp hop).2
    rw [if_neg (by simp [hkind])]
  · obtain ⟨hop, htest⟩ := List.mem_filter.mp hop
    rw [Bool.and_eq_true] at htest
    rw [leadingHandle?_eq_none valid hop htest.2, ite_self]

/-- **One wrapper for each constructor and each method**, in its place. -/
theorem oneForEach_wrappers (valid : Conforms ctx.api (some ctx.types)) {source : Source}
    (h : Source.ofContext ctx = .ok source) :
    OneForEach (Wraps ctx) ctx.api.written source.wrappers := by
  refine ⟨_, ?_, List.rel_append (forall₂_classWrappers h) (forall₂_objectWrappers valid h)⟩
  have hplaced := perm_placed (nodup_operations valid) valid.handleNames
    (fun op => decide (op.kind = .method)) (fun op => op.method.leadingHandle?)
  rw [List.flatMap_map] at hplaced
  simp only [← any_handles_eq] at hplaced
  exact (List.perm_append_comm_assoc _ _ _).trans
    ((hplaced.append_left _).trans (perm_written ctx.api))

/-- **The declaration of the native function of an operation.** -/
structure Declares (ctx : Context) (op : Operation) (e : ExternalFun) : Prop where
  made : ExternalFun.ofOperation ctx op = .ok e
  name : e.name = bridgeName op

/-- **The bridge of an operation.** -/
structure Bridges (ctx : Context) (op : Operation) (b : Bridge) : Prop where
  made : Bridge.ofOperation ctx op = .ok b
  /-- It stands behind the native function of the operation. -/
  symbol : b.symbol = bridgeSymbol ctx (bridgeName op)
  /-- What it calls is the function of the operation. -/
  callee : b.callee = op.symbol ctx.apiName

/-- What the declaration of a native function is made of. -/
theorem exists_of_external {op : Operation} {e : ExternalFun}
    (h : ExternalFun.ofOperation ctx op = .ok e) :
    e.name = bridgeName op ∧
      List.Forall₂ (fun p q => ∃ t, JvmType.ofText ctx p.type = .ok t ∧
        q = (identifier p.name, t.external)) op.method.parameters e.params ∧
      ∃ ret, JvmType.ofReturn ctx op.method = .ok ret ∧
        e.answer = ExternalFun.answerType op.method.isFallible ret := by
  obtain ⟨params, hparams, h⟩ := bind_eq_ok_iff.mp h
  obtain ⟨ret, hret, h⟩ := bind_eq_ok_iff.mp h
  obtain rfl := pure_eq_ok_iff.mp h
  refine ⟨rfl, (mapM_eq_ok_iff.mp hparams).imp fun p q hq => ?_, ret, hret, rfl⟩
  obtain ⟨t, ht, hq⟩ := bind_eq_ok_iff.mp hq
  exact ⟨t, ht, (pure_eq_ok_iff.mp hq).symm⟩

/-- What the head of a bridge is made of. -/
theorem exists_of_bridge {op : Operation} {b : Bridge} (h : Bridge.ofOperation ctx op = .ok b) :
    b.symbol = bridgeSymbol ctx (bridgeName op) ∧
      List.Forall₂ (fun p q => ∃ t, JvmType.ofText ctx p.type = .ok t ∧ q = (t.jni, p.name))
        op.method.parameters b.params ∧
      ∃ ret, JvmType.ofReturn ctx op.method = .ok ret ∧
        b.answer = Bridge.answerType op.method.isFallible ret := by
  obtain ⟨s, -, h⟩ := bind_eq_ok_iff.mp h
  obtain ⟨ret, hret, h⟩ := bind_eq_ok_iff.mp h
  obtain ⟨types, htypes, h⟩ := bind_eq_ok_iff.mp h
  obtain ⟨outcome, -, h⟩ := bind_eq_ok_iff.mp h
  obtain rfl := pure_eq_ok_iff.mp h
  dsimp only
  refine ⟨rfl, ?_, ret, hret, rfl⟩
  refine List.forall₂_map_right_iff.mpr ((mapM_eq_ok_iff.mp htypes).imp fun p e he => ?_)
  obtain ⟨t, ht, he⟩ := bind_eq_ok_iff.mp he
  obtain rfl := pure_eq_ok_iff.mp he
  exact ⟨t, ht, rfl⟩

theorem bridges_of_bridge {op : Operation} {b : Bridge} (h : Bridge.ofOperation ctx op = .ok b) :
    Bridges ctx op b := by
  obtain ⟨s, hs, hcallee, -⟩ := supplies_of_bridge h
  exact ⟨h, (exists_of_bridge h).1, hcallee.trans (Abi.exists_of_ofMethod hs).1⟩

/-- The declarations of native functions follow the operations, one by one. -/
theorem forall₂_externals {source : Source} (h : Source.ofContext ctx = .ok source) :
    List.Forall₂ (Declares ctx) ctx.api.operations source.object.externals := by
  obtain ⟨-, -, -, hobject⟩ := exists_of_source h
  obtain ⟨-, -, hexternals⟩ := exists_of_object hobject
  exact (mapM_eq_ok_iff.mp hexternals).imp fun op e he => ⟨he, (exists_of_external he).1⟩

/-- The functions of the bridge follow the operations, one by one. -/
theorem forall₂_functions {file : BridgeFile} (h : BridgeFile.ofContext ctx = .ok file) :
    List.Forall₂ (Bridges ctx) ctx.api.operations file.functions := by
  obtain ⟨-, -, hfunctions⟩ := exists_of_bridgeFile h
  exact (mapM_eq_ok_iff.mp hfunctions).imp fun op b hb => bridges_of_bridge hb

/-- Every field can be expressed if the data classes are known and their fields have types on the
virtual machine. -/
theorem canExpress_of_recordNames {names : List String} (hnames : Source.recordNames ctx = names)
    (hfields : ∀ n ∈ names, ∀ d ∈ ctx.types.get? n, ∀ f ∈ d.fields, HasJvmType ctx.types f.type) :
    CanExpress ctx := by
  intro n d hn hd
  rw [← mem_recordNames_iff, hnames] at hn
  exact hfields n hn d hd

/-- The files are there if every field of every data class has a type on the virtual
machine. -/
theorem exists_files (valid : Conforms ctx.api (some ctx.types)) {names : List String}
    (hnames : Source.recordNames ctx = names)
    (hfields : ∀ n ∈ names, ∀ d ∈ ctx.types.get? n, ∀ f ∈ d.fields, HasJvmType ctx.types f.type) :
    ∃ source file, Source.ofContext ctx = .ok source ∧ BridgeFile.ofContext ctx = .ok file := by
  obtain ⟨artifacts, h⟩ := (succeeds_emit_iff valid).mpr (canExpress_of_recordNames hnames hfields)
  obtain ⟨source, hsource, h⟩ := bind_eq_ok_iff.mp h
  obtain ⟨file, hfile, -⟩ := bind_eq_ok_iff.mp h
  exact ⟨source, file, hsource, hfile⟩

end Kotlin

/-! ### The Swift binding -/

namespace Swift

variable {ctx : Context}

/-- What the Swift file is made of. -/
theorem exists_of_source {source : Source} (h : Source.ofContext ctx = .ok source) :
    ctx.api.handles.mapM (HandleClass.ofHandle ctx) = .ok source.classes ∧
      (freeMethods ctx.api).mapM (Function.ofOperation ctx true) = .ok source.free := by
  obtain ⟨errors, -, h⟩ := bind_eq_ok_iff.mp h
  obtain ⟨classes, hclasses, h⟩ := bind_eq_ok_iff.mp h
  obtain ⟨free, hfree, h⟩ := bind_eq_ok_iff.mp h
  obtain rfl := pure_eq_ok_iff.mp h
  exact ⟨hclasses, hfree⟩

/-- What the class of a handle is made of. -/
theorem exists_of_handleClass {handle : Handle} {c : HandleClass}
    (h : HandleClass.ofHandle ctx handle = .ok c) :
    c.handle = handle ∧ c.destructor = ctx.api.destructorSymbol? handle.name ∧
      ∃ makers others,
        (HandleClass.constructors ctx.api handle.name).mapM (Function.ofOperation ctx true)
          = .ok makers ∧
        (HandleClass.methods ctx.api handle.name).mapM (Function.ofOperation ctx false)
          = .ok others ∧
        c.functions = makers ++ others := by
  obtain ⟨makers, hmakers, h⟩ := bind_eq_ok_iff.mp h
  obtain ⟨others, hothers, h⟩ := bind_eq_ok_iff.mp h
  obtain rfl := pure_eq_ok_iff.mp h
  exact ⟨rfl, rfl, makers, others, hmakers, hothers, rfl⟩

/-- **The public functions of the Swift file**, each with the class that it stands on. Those
of the name space stand on none. -/
def Source.functions (source : Source) : List (Option String × Function) :=
  source.classes.flatMap (fun c => c.functions.map (some c.handle.name, ·))
    ++ source.free.map (none, ·)

/-- The class that an operation belongs to: the one of the handle that it makes or that it
takes in front. -/
def home (op : Operation) : Option String :=
  match op.kind with
  | .constructor => op.method.returnedHandle?
  | .destructor => none
  | .method => op.method.leadingHandle?

/-- **The function of an operation, in its place.** -/
structure Exposes (ctx : Context) (op : Operation) (f : Option String × Function) : Prop where
  place : f.1 = home op
  /-- Only a method on a handle has a receiver. -/
  made : Function.ofOperation ctx (op.kind = .constructor || f.1.isNone) op = .ok f.2
  /-- What it calls is the function of the operation. -/
  symbol : f.2.symbol = op.symbol ctx.apiName

/-- Functions that are made alike of operations of one class expose them there. -/
theorem forall₂_exposes {ops : List Operation} {place : Option String} {isStatic : Bool}
    {functions : List Function}
    (hops : ∀ op ∈ ops, home op = place ∧ (op.kind = .constructor || place.isNone) = isStatic)
    (h : ops.mapM (Function.ofOperation ctx isStatic) = .ok functions) :
    List.Forall₂ (Exposes ctx) ops (functions.map (place, ·)) := by
  rw [List.forall₂_map_right_iff]
  refine forall₂_imp_of_mem (mapM_eq_ok_iff.mp h) fun op hop f hf => ?_
  obtain ⟨hhome, hstatic⟩ := hops op hop
  refine ⟨hhome.symm, ?_, (exists_of_function hf).1⟩
  rw [hstatic]
  exact hf

/-- The functions on the classes, class by class. -/
theorem forall₂_classFunctions {source : Source} (h : Source.ofContext ctx = .ok source) :
    List.Forall₂ (Exposes ctx)
      (ctx.api.handles.flatMap fun handle =>
        HandleClass.constructors ctx.api handle.name ++ HandleClass.methods ctx.api handle.name)
      (source.classes.flatMap fun c => c.functions.map (some c.handle.name, ·)) := by
  obtain ⟨hclasses, -⟩ := exists_of_source h
  refine List.rel_flatMap (mapM_eq_ok_iff.mp hclasses) fun handle c hc => ?_
  obtain ⟨rfl, -, makers, others, hmakers, hothers, hfunctions⟩ := exists_of_handleClass hc
  rw [hfunctions, List.map_append]
  refine List.rel_append (forall₂_exposes (fun op hop => ?_) hmakers)
    (forall₂_exposes (fun op hop => ?_) hothers)
  -- What is kept of the operations tells the kind and the class, which is the home that is asked
  -- for.
  · obtain ⟨hkind, hreturned⟩ : op.kind = .constructor ∧
        op.method.returnedHandle? = some c.handle.name := by
      simpa using (List.mem_filter.mp hop).2
    rw [home, hkind]
    exact ⟨hreturned, rfl⟩
  · obtain ⟨hkind, hleading⟩ : op.kind = .method ∧
        op.method.leadingHandle? = some c.handle.name := by
      simpa using (List.mem_filter.mp hop).2
    rw [home, hkind]
    exact ⟨hleading, rfl⟩

/-- The functions of the name space. -/
theorem forall₂_freeFunctions (valid : Conforms ctx.api (some ctx.types)) {source : Source}
    (h : Source.ofContext ctx = .ok source) :
    List.Forall₂ (Exposes ctx) (freeMethods ctx.api) (source.free.map (none, ·)) := by
  refine forall₂_exposes (fun op hop => ?_) (exists_of_source h).2
  obtain ⟨hop, htest⟩ := List.mem_filter.mp hop
  rw [Bool.and_eq_true, decide_eq_true_eq] at htest
  rw [home, htest.1]
  exact ⟨leadingHandle?_eq_none valid hop htest.2, rfl⟩

/-- No constructor is left over when those of the declared handles are taken. -/
theorem leftover_constructors (valid : Conforms ctx.api (some ctx.types)) :
    (ctx.api.operations.filter fun op => decide (op.kind = .constructor) &&
      !(op.method.returnedHandle?.any fun h => (ctx.api.handles.map (·.name)).contains h)) =
        [] := by
  rw [List.filter_eq_nil_iff]
  intro op hop htest
  rw [Bool.and_eq_true, decide_eq_true_eq] at htest
  obtain ⟨handle, hdeclared, hreturned⟩ := exists_returnedHandle? valid hop htest.1
  rw [hreturned, Option.any_some, List.contains_iff_mem.mpr hdeclared] at htest
  exact absurd htest.2 (by decide)

/-- **One function for each constructor and each method**, in its place. -/
theorem oneForEach_functions (valid : Conforms ctx.api (some ctx.types)) {source : Source}
    (h : Source.ofContext ctx = .ok source) :
    OneForEach (Exposes ctx) ctx.api.written source.functions := by
  refine ⟨_, ?_, List.rel_append (forall₂_classFunctions h) (forall₂_freeFunctions valid h)⟩
  have hmakers := perm_placed (nodup_operations valid) valid.handleNames
    (fun op => decide (op.kind = .constructor)) (fun op => op.method.returnedHandle?)
  have hmethods := perm_placed (nodup_operations valid) valid.handleNames
    (fun op => decide (op.kind = .method)) (fun op => op.method.leadingHandle?)
  rw [leftover_constructors valid, List.append_nil, List.flatMap_map] at hmakers
  rw [List.flatMap_map] at hmethods
  simp only [← any_handles_eq] at hmethods
  -- on each class the constructors stand before the methods
  have hclasses := List.flatMap_append_perm ctx.api.handles
    (fun handle => HandleClass.constructors ctx.api handle.name)
    (fun handle => HandleClass.methods ctx.api handle.name)
  refine (hclasses.symm.append_right _).trans ?_
  rw [List.append_assoc]
  exact (hmakers.append hmethods).trans (perm_written ctx.api)

end Swift

end Bindery
