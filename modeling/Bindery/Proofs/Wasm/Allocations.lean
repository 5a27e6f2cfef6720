import Bindery.Proofs.Wasm.Convention
import Bindery.Proofs.Wasm.Mentions

/-!
# What a wrapper allocates and what it frees

A wrapper in JavaScript is put together from what each parameter takes: statements in front of
the call, copies back behind it, and the pointers to free at the end. The parts go into
different places of the wrapper, some of them at the front of a list and some at its end.
What keeps allocations and frees together is a property of each part (`Balanced`): the
pointers that its statements bind are, in order, the ones that it frees. The room for a result
is bound last and freed last, so the property carries over to the whole wrapper.

A record is written into its room together with the texts and vectors that it refers to. These
go into a list of their own, which is declared first of all and emptied last of all, and there
is such a list exactly when a record is passed.

`wrapper_is_balanced` says all this of every wrapper that is emitted.
-/

namespace Bindery

namespace JavaScript

open Wasm (Steps exists_steps_of_wrapper)

/-! ### Texts that differ -/

theorem append_ne_of_not_suffix {s t u : String} (h : ¬ t.toList <:+ u.toList) : s ++ t ≠ u := by
  rintro rfl
  rw [String.toList_append] at h
  exact h (List.suffix_append _ _)

theorem append_ne_of_not_prefix {s t u : String} (h : ¬ s.toList <+: u.toList) : s ++ t ≠ u := by
  rintro rfl
  rw [String.toList_append] at h
  exact h (List.prefix_append _ _)

/-- What a partial function keeps of a list stands next to what it makes of it. -/
theorem forall₂_filter_filterMap {α β : Type} (f : α → Option β) (xs : List α) :
    List.Forall₂ (fun x y => f x = some y) (xs.filter fun x => (f x).isSome) (xs.filterMap f) := by
  induction xs with
  | nil => exact .nil
  | cons x xs ih =>
    cases h : f x with
    | none =>
      rw [List.filter_cons_of_neg (by simp [h]), List.filterMap_cons_none h]
      exact ih
    | some y =>
      rw [List.filter_cons_of_pos (by simp [h]), List.filterMap_cons_some h]
      exact .cons h ih

/-! ### Statements -/

/-- **The statement binds a pointer to memory that it allocates.** -/
inductive Binds (ptr : String) : String → Prop where
  | encode (value : String) : Binds ptr ("const " ++ ptr ++ " = _encodeString(" ++ value ++ ");")
  | copyBuffer (len value : String) :
    Binds ptr ("const [" ++ ptr ++ ", " ++ len ++ "] = _copyBufferToWasm(" ++ value ++ ");")
  | malloc (size : Nat) : Binds ptr ("const " ++ ptr ++ " = _malloc(" ++ toString size ++ ");")

/-- A statement that allocates binds the pointer that it allocates. -/
theorem binds_of_allocated? {s : Setup} {ptr : String} (h : s.allocated? = some ptr) :
    Binds ptr s.text := by
  cases s with
  | allocs | store _ _ _ => cases h
  | encode p value =>
    obtain rfl := Option.some.inj h
    exact .encode value
  | copyBuffer p len value =>
    obtain rfl := Option.some.inj h
    exact .copyBuffer len value
  | reserve p size =>
    obtain rfl := Option.some.inj h
    exact .malloc size

/-- The statement puts something into the list of allocations. -/
def Setup.collects : Setup → Bool
  | store (.record _) _ _ | store .text _ _ => true
  | store (.scalar _) _ _ | allocs | encode _ _ | copyBuffer _ _ _ | reserve _ _ => false

/-- Only the declaration of the list reads as one. -/
theorem Setup.text_eq_iff {s : Setup} : s.text = "const allocs = [];" ↔ s = .allocs := by
  constructor
  -- Every other setup ends in a way that the declaration does not.
  · intro h
    cases s with
    | allocs => rfl
    | encode _ _ | copyBuffer _ _ _ | reserve _ _ =>
      exact absurd h (append_ne_of_not_suffix (by decide))
    | store cell ptr value =>
      exfalso
      cases cell with
      | scalar p => cases p <;> exact absurd h (append_ne_of_not_suffix (by decide))
      | text | record _ => exact absurd h (append_ne_of_not_suffix (by decide))
  · rintro rfl
    rfl

/-! ### Parameters -/

/-- The parameter passes a record. -/
def PassesRecord (types : Schema) (p : Parameter) : Prop :=
  ∃ q, p.typeRef? = some (.qualified q) ∧ types.isRecord q = true

/-- The copy back into a parameter that is borrowed to be changed. -/
def writeBack? (types : Schema) (p : Parameter) : Option WriteBack :=
  match p.typeRef?, p.effectiveTransfer with
  | some (.buffer _), .refMut => some (.buffer (ptrName p) (identifier p.name))
  | some (.qualified q), .refMut =>
    if types.isRecord q then some (.record q (ptrName p) (identifier p.name)) else none
  | _, _ => none

/-- The name of a pointer or a length that is passed. -/
def Arg.local? : Arg → Option String
  | pointer n | length n => some n
  | handle _ | bool _ | number _ | result => none

/-- **What a parameter takes is balanced.** -/
structure Marshalled.Balanced (types : Schema) (p : Parameter) (x : Marshalled) : Prop where
  /-- What is bound is freed, in the same order. -/
  freed : x.setup.filterMap Setup.allocated? = x.frees
  /-- What is declared is passed. -/
  declared : x.setup.flatMap Setup.declared = x.args.filterMap Arg.local?
  /-- The list of allocations is for records. -/
  usesAllocs : x.usesAllocs = true ↔ PassesRecord types p
  undeclared : .allocs ∉ x.setup
  /-- What puts something into the list says so. -/
  collects : ∀ s ∈ x.setup, s.collects = true → x.usesAllocs = true
  writeBacks : x.writeBacks = (writeBack? types p).toList
  /-- Without anything to free there is nothing to do. -/
  bare : x.frees = [] → x.setup = [] ∧ x.writeBacks = [] ∧ x.usesAllocs = false

section Parameters

variable {ctx : Context} {types : Schema} {p : Parameter} {x : Marshalled}

/-- A parameter that is passed as it is takes nothing. -/
theorem Marshalled.Balanced.plain {args : List Arg} (hlocal : args.filterMap Arg.local? = [])
    (hrecord : ¬ PassesRecord types p) (hback : writeBack? types p = none) :
    Marshalled.Balanced types p { args } where
  freed := rfl
  declared := hlocal.symm
  usesAllocs := iff_of_false Bool.false_ne_true hrecord
  undeclared := List.not_mem_nil
  collects _ hs := absurd hs List.not_mem_nil
  writeBacks := by
    rw [hback]
    rfl
  bare _ := ⟨rfl, rfl, rfl⟩

/-- A parameter that needs one room and no more binds it, and frees it. -/
theorem Marshalled.Balanced.room {ptr : String}
    (hfreed : x.setup.filterMap Setup.allocated? = [ptr]) (hfrees : x.frees = [ptr])
    (hdeclared : x.setup.flatMap Setup.declared = x.args.filterMap Arg.local?)
    (hplain : ∀ s ∈ x.setup, s ≠ .allocs ∧ s.collects = false) (huses : x.usesAllocs = false)
    (hrecord : ¬ PassesRecord types p) (hback : x.writeBacks = (writeBack? types p).toList) :
    x.Balanced types p where
  freed := hfreed.trans hfrees.symm
  declared := hdeclared
  usesAllocs := by
    rw [huses]
    exact iff_of_false Bool.false_ne_true hrecord
  undeclared hmem := (hplain _ hmem).1 rfl
  collects s hs hcollects := by
    rw [(hplain s hs).2] at hcollects
    exact absurd hcollects Bool.false_ne_true
  writeBacks := hback
  bare h := by
    rw [hfrees] at h
    exact absurd h (List.cons_ne_nil _ _)

/-- Only a record is copied back out of a schema type. -/
theorem writeBack?_of_not_isRecord {q : String} (ht : p.typeRef? = some (.qualified q))
    (h : types.isRecord q = false) : writeBack? types p = none := by
  rw [writeBack?, ht]
  cases p.effectiveTransfer with
  | value | ref => rfl
  | refMut =>
    dsimp only
    rw [h, if_neg Bool.false_ne_true]

theorem passesRecord_iff {q : String} (ht : p.typeRef? = some (.qualified q)) :
    PassesRecord types p ↔ types.isRecord q = true := by
  rw [PassesRecord, ht]
  simp

theorem balanced_marshalSchema {q : String} (ht : p.typeRef? = some (.qualified q))
    (h : marshalSchema ctx p q = .ok x) : x.Balanced ctx.types p := by
  have hpasses : PassesRecord ctx.types p ↔ ctx.types.isRecord q = true := passesRecord_iff ht
  rw [marshalSchema, Cell.ofName?_eq] at h
  cases hrec : ctx.types.isRecord q with
  | true =>
    rw [Schema.isEnum_eq_false_of_isRecord hrec, if_neg Bool.false_ne_true, hrec, if_pos rfl] at h
    obtain ⟨size, -, h⟩ := bind_eq_ok_iff.mp h
    obtain rfl := pure_eq_ok_iff.mp h
    refine ⟨rfl, rfl, iff_of_true rfl (hpasses.mpr hrec), by simp, fun _ _ _ => rfl, ?_, ?_⟩
    · rw [writeBack?, ht]
      cases p.effectiveTransfer with
      | value | ref => rfl
      | refMut =>
        dsimp only
        rw [if_pos hrec]
        rfl
    · exact fun hfrees => absurd hfrees (List.cons_ne_nil _ _)
  | false =>
    have hrecord : ¬ PassesRecord ctx.types p := by
      rw [hpasses, hrec]
      exact Bool.false_ne_true
    -- an enumeration has no copy back, however it is passed
    have hback := writeBack?_of_not_isRecord ht hrec
    rw [hrec] at h
    cases henum : ctx.types.isEnum q with
    | false =>
      rw [henum] at h
      cases h
    | true =>
      rw [henum, if_pos rfl] at h
      cases htransfer : p.effectiveTransfer with
      | value =>
        rw [htransfer] at h
        obtain rfl := Except.ok.inj h
        exact .plain rfl hrecord hback
      | ref | refMut =>
        rw [htransfer] at h
        obtain ⟨size, -, h⟩ := bind_eq_ok_iff.mp h
        obtain rfl := pure_eq_ok_iff.mp h
        refine .room rfl rfl rfl ?_ rfl hrecord ?_
        · simp [Setup.collects]
        · rw [hback]
          rfl

/-- Only a schema type can be a record. -/
theorem not_passesRecord {t : TypeRef} (ht : p.typeRef? = some t)
    (h : ∀ q, t ≠ .qualified q) : ¬ PassesRecord types p := by
  rintro ⟨q, hq, -⟩
  exact h q (Option.some.inj (ht.symm.trans hq))

/-- **What a parameter takes is balanced.** -/
theorem balanced_marshal (h : marshal ctx p = .ok x) : x.Balanced ctx.types p := by
  rw [marshal] at h
  obtain ⟨t, ht, h⟩ := bind_eq_ok_iff.mp h
  replace ht : p.typeRef? = some t := classify_eq_ok_iff.mp ht
  -- texts and elements take room, handles and scalars take none
  cases t with
  | qualified q => exact balanced_marshalSchema ht h
  | string =>
    obtain rfl := pure_eq_ok_iff.mp h
    refine .room rfl rfl rfl (by simp [Setup.collects]) rfl (not_passesRecord ht (by simp)) ?_
    rw [writeBack?, ht]
    rfl
  | buffer element =>
    obtain rfl := pure_eq_ok_iff.mp h
    refine .room rfl rfl rfl (by simp [Setup.collects]) rfl (not_passesRecord ht (by simp)) ?_
    rw [writeBack?, ht]
    cases p.effectiveTransfer <;> rfl
  | handle name =>
    obtain rfl := pure_eq_ok_iff.mp h
    refine .plain rfl (not_passesRecord ht (by simp)) ?_
    rw [writeBack?, ht]
  | primitive q =>
    obtain ⟨arg, hlocal, rfl⟩ : ∃ arg : Arg, arg.local? = none ∧ x = { args := [arg] } := by
      cases q <;> exact ⟨_, rfl, (pure_eq_ok_iff.mp h).symm⟩
    refine .plain (by simp [hlocal]) (not_passesRecord ht (by simp)) ?_
    rw [writeBack?, ht]

end Parameters

/-! ### Wrappers -/

/-- The expression of a result: what lies behind the result pointer, or what the call gives. -/
def resultText (ctx : Context) (m : Method) (r : Returns) : Except Fault String :=
  if (resultPlace? ctx m).isSome then readResult ctx r.type else convertResult r.type

/-- **The lines of a wrapper around its call**: the call with the check of its status, what is
copied back into borrowed parameters, and the result. -/
structure InOrder (ctx : Context) (m : Method) (w : Wrapper) (front answer : List Line) :
    Prop where
  lines : w.callLines = front
    ++ Code.lines ((m.parameters.filterMap (writeBack? ctx.types)).map WriteBack.text) ++ answer
  /-- A status is checked at once. -/
  checked : m.error ≠ none → front = w.statusLines
  called : m.error = none → ∃ binding, front = Code.lines [binding ++ w.call ++ ";"]
  /-- The result is read or converted in the statement that returns it. -/
  returned : ∀ r, m.returns = some r →
    ∃ e, resultText ctx m r = .ok e ∧ answer = Code.lines ["return " ++ e ++ ";"]
  silent : m.returns = none → answer = []

/-- **The wrapper frees exactly what it allocates.** -/
structure Wrapper.Balanced (ctx : Context) (m : Method) (w : Wrapper) : Prop where
  /-- The pointers that are bound in front of the call are, in order, the ones to free. -/
  freed : w.setup.filterMap Setup.allocated? = w.frees
  bound : List.Forall₂ (fun s ptr => Binds ptr s.text)
    (w.setup.filter fun s => s.allocated?.isSome) w.frees
  /-- Behind the call each of them is freed, and nothing else but what is in the list. -/
  behind : ∃ last, w.freeLines = Code.lines (w.frees.map fun f => "_free(" ++ f ++ ");") ++ last ∧
    (last = [] ∨ last = Code.lines ["allocs.forEach(_free);"])
  /-- The room for a result is one of them, the last one. -/
  room : (resultPlace? ctx m).isSome = true → w.frees.getLast? = some outPtr
  /-- There is a list of allocations exactly when a record is passed. -/
  declared : "const allocs = [];" ∈ w.setup.map Setup.text ↔
    ∃ p ∈ m.parameters, PassesRecord ctx.types p
  /-- Exactly then it is emptied. -/
  emptied : "allocs.forEach(_free);" ∈ w.freeLines.map Line.text ↔
    ∃ p ∈ m.parameters, PassesRecord ctx.types p
  once : w.setup.count .allocs ≤ 1
  /-- The list is there before anything is put into it. -/
  beforeUse : ∀ before s after, w.setup = before ++ s :: after → s.collects = true →
    .allocs ∈ before
  /-- What follows the allocations is guarded by a `try`, and the pointers are freed behind. -/
  guarded : w.frees ≠ [] → w.body = Code.lines (w.setup.map Setup.text)
    ++ Code.lines ["try \x7b"] ++ Code.indent w.callLines
    ++ Code.lines ["\x7d finally \x7b"]
    ++ Code.indent w.freeLines ++ Code.lines ["\x7d"]
  /-- Without allocations there is nothing in front of the call, and no `try`. -/
  bare : w.frees = [] → w.setup = [] ∧ w.body = w.callLines ∧ Code.Each (· ≠ "try \x7b") w.body
  inOrder : ∃ front answer, InOrder ctx m w front answer

section Wrappers

variable {ctx : Context} {op : Operation} {w : Wrapper} {xs : List Marshalled}
  {size? : Option Nat}

theorem balanced_parts (steps : Steps ctx op w xs size?) :
    List.Forall₂ (fun p x => x.Balanced ctx.types p) op.method.parameters xs :=
  steps.parts.imp fun _ _ h => balanced_marshal h

theorem freed_of_steps (steps : Steps ctx op w xs size?) :
    w.setup.filterMap Setup.allocated? = w.frees := by
  -- What a parameter allocates is what it frees, and the list itself is no allocation.
  have hparts : (xs.flatMap (·.setup)).filterMap Setup.allocated? = xs.flatMap (·.frees) := by
    rw [List.filterMap_flatMap]
    refine List.flatMap_congr fun x hx => ?_
    obtain ⟨p, -, hp⟩ := exists_mem_of_forall₂ (balanced_parts steps).flip hx
    exact hp.freed
  have hlist : (if xs.any (·.usesAllocs) then [Setup.allocs] else []).filterMap
      Setup.allocated? = [] := by
    split <;> rfl
  have hroom : (size?.map (Setup.reserve outPtr)).toList.filterMap Setup.allocated? =
      (size?.map fun _ => outPtr).toList := by
    cases size? <;> rfl
  rw [steps.setup, steps.frees, List.filterMap_append, List.filterMap_append, hlist, hparts,
    hroom, List.nil_append]

/-- The list of allocations is for records. -/
theorem any_usesAllocs_iff (steps : Steps ctx op w xs size?) :
    xs.any (·.usesAllocs) = true ↔ ∃ p ∈ op.method.parameters, PassesRecord ctx.types p := by
  rw [List.any_eq_true]
  constructor
  · rintro ⟨x, hx, huses⟩
    obtain ⟨p, hp, hbalanced⟩ := exists_mem_of_forall₂ (balanced_parts steps).flip hx
    exact ⟨p, hp, hbalanced.usesAllocs.mp huses⟩
  · rintro ⟨p, hp, hpasses⟩
    obtain ⟨x, hx, hbalanced⟩ := exists_mem_of_forall₂ (balanced_parts steps) hp
    exact ⟨x, hx, hbalanced.usesAllocs.mpr hpasses⟩

/-- The list stands in front of all other statements, or nowhere. -/
theorem setup_cases (steps : Steps ctx op w xs size?) :
    ∃ rest, .allocs ∉ rest ∧
      (xs.any (·.usesAllocs) = true ∧ w.setup = .allocs :: rest ∨
        xs.any (·.usesAllocs) = false ∧ w.setup = rest ∧ ∀ s ∈ rest, s.collects = false) := by
  refine ⟨xs.flatMap (·.setup) ++ (size?.map (Setup.reserve outPtr)).toList, ?_, ?_⟩
  · rw [List.mem_append, not_or, List.mem_flatMap]
    -- No part declares the list by itself; only the wrapper does, at the front.
    refine ⟨?_, by cases size? <;> simp⟩
    rintro ⟨x, hx, hmem⟩
    obtain ⟨p, -, hbalanced⟩ := exists_mem_of_forall₂ (balanced_parts steps).flip hx
    exact hbalanced.undeclared hmem
  · rw [steps.setup, List.append_assoc]
    cases huses : xs.any (·.usesAllocs) with
    | true => exact .inl ⟨rfl, rfl⟩
    | false =>
      refine .inr ⟨rfl, rfl, fun s hs => ?_⟩
      rcases List.mem_append.mp hs with hs | hs
      · obtain ⟨x, hx, hs⟩ := List.mem_flatMap.mp hs
        obtain ⟨p, -, hbalanced⟩ := exists_mem_of_forall₂ (balanced_parts steps).flip hx
        have hunused : x.usesAllocs = false := by simpa using List.any_eq_false.mp huses x hx
        cases hcollects : s.collects with
        | false => rfl
        | true => exact absurd (hbalanced.collects s hs hcollects) (by simp [hunused])
      · cases size? with
        | none => cases hs
        | some size =>
          obtain rfl := List.mem_singleton.mp hs
          rfl

theorem allocs_mem_setup_iff (steps : Steps ctx op w xs size?) :
    .allocs ∈ w.setup ↔ ∃ p ∈ op.method.parameters, PassesRecord ctx.types p := by
  rw [← any_usesAllocs_iff steps]
  obtain ⟨rest, hrest, ⟨huses, hsetup⟩ | ⟨huses, hsetup, -⟩⟩ := setup_cases steps
  · rw [hsetup]
    exact iff_of_true List.mem_cons_self huses
  · rw [hsetup]
    exact iff_of_false hrest (by simp [huses])

theorem declared_iff (steps : Steps ctx op w xs size?) :
    "const allocs = [];" ∈ w.setup.map Setup.text ↔
      ∃ p ∈ op.method.parameters, PassesRecord ctx.types p := by
  rw [← allocs_mem_setup_iff steps, List.mem_map]
  constructor
  · rintro ⟨s, hs, htext⟩
    rwa [← Setup.text_eq_iff.mp htext]
  · intro hs
    exact ⟨.allocs, hs, rfl⟩

theorem emptied_iff (steps : Steps ctx op w xs size?) :
    "allocs.forEach(_free);" ∈ w.freeLines.map Line.text ↔
      ∃ p ∈ op.method.parameters, PassesRecord ctx.types p := by
  have hfree : "allocs.forEach(_free);" ∉
      (Code.lines (w.frees.map fun f => "_free(" ++ f ++ ");")).map Line.text := by
    simp only [Code.lines, List.map_map, List.mem_map, Function.comp_apply, not_exists, not_and]
    intro f _
    rw [String.append_assoc]
    exact append_ne_of_not_prefix (by decide)
  rw [← any_usesAllocs_iff steps, ← steps.usesAllocs, Wrapper.freeLines, List.map_append,
    List.mem_append, or_iff_right hfree]
  cases w.usesAllocs with
  | true => exact iff_of_true (List.mem_singleton_self _) rfl
  | false => exact iff_of_false List.not_mem_nil Bool.false_ne_true

/-- What is not in front of the list of allocations does not use it. -/
theorem allocs_mem_before (steps : Steps ctx op w xs size?) {before after : List Setup}
    {s : Setup} (hsetup : w.setup = before ++ s :: after) (hs : s.collects = true) :
    .allocs ∈ before := by
  obtain ⟨rest, -, ⟨-, hcases⟩ | ⟨-, hcases, hunused⟩⟩ := setup_cases steps
  · cases before with
    | nil =>
      -- the first statement declares the list
      obtain ⟨rfl, -⟩ := List.cons.inj (hcases.symm.trans hsetup)
      cases hs
    | cons first before =>
      obtain ⟨rfl, -⟩ := List.cons.inj (hcases.symm.trans hsetup)
      exact List.mem_cons_self
  · have hmem : s ∈ rest := by
      rw [← hcases, hsetup]
      exact List.mem_append_right _ List.mem_cons_self
    exact absurd hs (by simp [hunused s hmem])

/-- A record has room of its own, so there is something to free whenever there is a list. -/
theorem bare_of_frees (steps : Steps ctx op w xs size?) (h : w.frees = []) :
    w.setup = [] ∧ w.writeBacks = [] ∧ w.usesAllocs = false := by
  rw [steps.frees, List.append_eq_nil_iff, List.flatMap_eq_nil_iff] at h
  obtain ⟨hparts, hroom⟩ := h
  -- Nothing to free means nothing allocated, parameter by parameter.
  have hbare : ∀ x ∈ xs, x.setup = [] ∧ x.writeBacks = [] ∧ x.usesAllocs = false := by
    intro x hx
    obtain ⟨p, -, hbalanced⟩ := exists_mem_of_forall₂ (balanced_parts steps).flip hx
    exact hbalanced.bare (hparts x hx)
  have huses : xs.any (·.usesAllocs) = false :=
    List.any_eq_false.mpr fun x hx => by simp [(hbare x hx).2.2]
  have hsize : size? = none := by
    cases size? with
    | none => rfl
    | some size => cases hroom
  refine ⟨?_, ?_, steps.usesAllocs.trans huses⟩
  · rw [steps.setup, huses, hsize, List.flatMap_eq_nil_iff.mpr fun x hx => (hbare x hx).1]
    rfl
  · rw [steps.writeBacks, List.flatMap_eq_nil_iff]
    exact fun x hx => (hbare x hx).2.1

theorem writeBacks_eq (steps : Steps ctx op w xs size?) :
    w.writeBacks = op.method.parameters.filterMap (writeBack? ctx.types) := by
  have hparts : xs.map (·.writeBacks) =
      op.method.parameters.map fun p => (writeBack? ctx.types p).toList :=
    map_eq_map_of_forall₂ (balanced_parts steps) fun p x hx => hx.writeBacks
  calc w.writeBacks
    _ = xs.flatMap (·.writeBacks) := steps.writeBacks
    _ = op.method.parameters.flatMap fun p => (writeBack? ctx.types p).toList := by
      rw [List.flatMap_def, hparts, ← List.flatMap_def]
    _ = op.method.parameters.filterMap (writeBack? ctx.types) :=
      (List.filterMap_eq_flatMap_toList _ _).symm

/-- Every line of the call and of what follows it ends in another way than a `try`. -/
theorem each_callLines_ne_try (w : Wrapper) : Code.Each (· ≠ "try \x7b") w.callLines := by
  -- No line of a call ends as `try` does.
  have hend {t : String} (text : String) (h : ¬ t.toList <:+ "try \x7b".toList) :
      Code.Each (· ≠ "try \x7b") (Code.lines [text ++ t]) :=
    Code.each_lines.mpr (List.forall_mem_singleton.mpr (append_ne_of_not_suffix h))
  have hback : Code.Each (· ≠ "try \x7b") (Code.lines (w.writeBacks.map WriteBack.text)) := by
    rw [Code.each_lines, List.forall_mem_map]
    intro b _
    cases b <;> exact append_ne_of_not_suffix (by decide)
  have hstatus : Code.Each (· ≠ "try \x7b") w.statusLines := by
    rw [Wrapper.statusLines, Code.each_append, Code.each_block]
    exact ⟨hend _ (by decide), by decide, hend _ (by decide), by decide⟩
  unfold Wrapper.callLines
  cases w.outcome with
  | done => exact Code.each_append.mpr ⟨hend _ (by decide), hback⟩
  | status => exact Code.each_append.mpr ⟨hstatus, hback⟩
  | statusThen e =>
    exact Code.each_append.mpr ⟨Code.each_append.mpr ⟨hstatus, hback⟩, hend _ (by decide)⟩
  | stored e | direct e =>
    exact Code.each_append.mpr
      ⟨Code.each_append.mpr ⟨hend _ (by decide), hback⟩, hend _ (by decide)⟩

/-- The result is read where there is a result pointer. -/
theorem outcomeOf_eq (ctx : Context) (m : Method) :
    outcomeOf ctx m =
      match m.error, m.returns with
      | some _, some r => (resultText ctx m r).map .statusThen
      | some _, none => .ok .status
      | none, some r =>
        (resultText ctx m r).map (if (resultPlace? ctx m).isSome then .stored else .direct)
      | none, none => .ok .done := by
  rw [outcomeOf]
  unfold resultText resultPlace?
  cases m.error with
  | some e => cases m.returns <;> rfl
  | none =>
    cases m.returns with
    | none => rfl
    | some r =>
      -- The place for a result exists just where the result is a record.
      dsimp only
      by_cases hrecord : Abi.isRecordType ctx.types r.type = true
      · simp only [hrecord]
        rfl
      · simp only [hrecord]
        rfl

/-- What is done with the call comes in three steps. -/
theorem exists_inOrder (steps : Steps ctx op w xs size?) :
    ∃ front answer, InOrder ctx op.method w front answer := by
  have hback := writeBacks_eq steps
  have houtcome := steps.outcome
  rw [outcomeOf_eq] at houtcome
  cases herror : op.method.error with
  | some e =>
    have hfails : ¬ op.method.error = none := by
      rw [herror]
      exact Option.some_ne_none e
    cases hreturns : op.method.returns with
    | none =>
      rw [herror, hreturns] at houtcome
      have hw : w.outcome = .status := (Except.ok.inj houtcome).symm
      refine ⟨w.statusLines, [], ?_, fun _ => rfl, fun h => absurd h hfails, fun r hr => ?_,
        fun _ => rfl⟩
      · rw [Wrapper.callLines, hw, hback, List.append_nil]
      · rw [hreturns] at hr
        cases hr
    | some r =>
      rw [herror, hreturns] at houtcome
      obtain ⟨result, hresult, hw⟩ := map_eq_ok_iff.mp houtcome
      refine ⟨w.statusLines, Code.lines ["return " ++ result ++ ";"], ?_, fun _ => rfl,
        fun h => absurd h hfails, fun r' hr' => ?_, fun h => ?_⟩
      · rw [Wrapper.callLines, ← hw, hback]
      · obtain rfl := Option.some.inj (hreturns.symm.trans hr')
        exact ⟨result, hresult, rfl⟩
      · rw [hreturns] at h
        cases h
  | none =>
    cases hreturns : op.method.returns with
    | none =>
      rw [herror, hreturns] at houtcome
      have hw : w.outcome = .done := (Except.ok.inj houtcome).symm
      refine ⟨Code.lines [w.call ++ ";"], [], ?_, fun h => absurd herror h, fun _ => ⟨"", ?_⟩,
        fun r hr => ?_, fun _ => rfl⟩
      · rw [Wrapper.callLines, hw, hback, List.append_nil]
      · rw [String.empty_append]
      · rw [hreturns] at hr
        cases hr
    | some r =>
      rw [herror, hreturns] at houtcome
      obtain ⟨result, hresult, hw⟩ := map_eq_ok_iff.mp houtcome
      -- a record is read through the pointer, and anything else is what the call gives
      obtain ⟨binding, hlines⟩ : ∃ binding, w.callLines = Code.lines [binding ++ w.call ++ ";"]
          ++ Code.lines (w.writeBacks.map WriteBack.text)
          ++ Code.lines ["return " ++ result ++ ";"] := by
        cases hplace : (resultPlace? ctx op.method).isSome with
        | true =>
          refine ⟨"", ?_⟩
          rw [hplace, if_pos rfl] at hw
          rw [Wrapper.callLines, ← hw, String.empty_append]
        | false =>
          refine ⟨"const _result = ", ?_⟩
          rw [hplace, if_neg Bool.false_ne_true] at hw
          rw [Wrapper.callLines, ← hw]
      refine ⟨Code.lines [binding ++ w.call ++ ";"], Code.lines ["return " ++ result ++ ";"], ?_,
        fun h => absurd herror h, fun _ => ⟨binding, rfl⟩, fun r' hr' => ?_, fun h => ?_⟩
      · rw [hlines, hback]
      · obtain rfl := Option.some.inj (hreturns.symm.trans hr')
        exact ⟨result, hresult, rfl⟩
      · rw [hreturns] at h
        cases h

/-- **A wrapper frees exactly what it allocates**: in order, the pointers that are bound in
front of the call are the ones that are freed behind it, there is a list of further
allocations exactly when a record is passed, and the call, the copies back and the result
stand in between, under a `try`. -/
theorem wrapper_is_balanced (h : Wrapper.ofOperation ctx op = .ok w) :
    w.Balanced ctx op.method := by
  obtain ⟨xs, size?, steps⟩ := exists_steps_of_wrapper h
  have hfreed := freed_of_steps steps
  refine ⟨hfreed, ?_, ⟨_, rfl, ?_⟩, ?_, declared_iff steps, emptied_iff steps, ?_, ?_, ?_, ?_,
    exists_inOrder steps⟩
  · rw [← hfreed]
    exact (forall₂_filter_filterMap Setup.allocated? w.setup).imp fun s ptr hs => binds_of_allocated? hs
  · cases w.usesAllocs with
    | true => exact .inr rfl
    | false => exact .inl rfl
  · -- the room for the result is reserved last
    intro hplace
    obtain ⟨size, rfl⟩ := Option.isSome_iff_exists.mp (steps.room.trans hplace)
    rw [steps.frees]
    exact List.getLast?_concat
  · -- the list is declared in front of everything, or not at all
    obtain ⟨rest, hrest, ⟨-, hsetup⟩ | ⟨-, hsetup, -⟩⟩ := setup_cases steps
    · rw [hsetup, List.count_cons_self, List.count_eq_zero.mpr hrest]
    · rw [hsetup, List.count_eq_zero.mpr hrest]
      exact Nat.zero_le 1
  · intro before s after hsetup hs
    exact allocs_mem_before steps hsetup hs
  · -- with a pointer to free there is a `try`
    intro hfrees
    have hallocates : w.allocates = true := by
      rw [Wrapper.allocates, List.isEmpty_eq_false_iff.mpr hfrees]
      rfl
    rw [Wrapper.body, if_pos hallocates]
  · -- and without one there is nothing in front of the call
    intro hfrees
    obtain ⟨hsetup, -, huses⟩ := bare_of_frees steps hfrees
    have hallocates : w.allocates = false := by
      rw [Wrapper.allocates, hfrees, huses]
      rfl
    have hbody : w.body = w.callLines := by
      rw [Wrapper.body, hallocates, if_neg Bool.false_ne_true]
    refine ⟨hsetup, hbody, ?_⟩
    rw [hbody]
    exact each_callLines_ne_try w

end Wrappers

open Wasm (drawContext drawOperation) in
theorem wrapper_is_balanced_draw :
    ∃ w, Wrapper.ofOperation drawContext drawOperation = .ok w ∧
      w.frees = ["_titlePtr", "_dataPtr", "_clipPtr", "_outPtr"] ∧
      w.Balanced drawContext drawOperation.method := by
  have hsize : Abi.valueSize drawContext.types "Box" = .ok 4 := by cbv
  have hclass : Abi.classify "Box" = .ok (.qualified "Box") := by decide +kernel
  -- the one parameter that needs a layout
  have hclip : marshal drawContext ⟨"clip", "Box", some .refMut, none⟩ = .ok
      { setup := [.reserve "_clipPtr" 4, .store (.record "Box") "_clipPtr" "clip"]
        args := [.pointer "_clipPtr"]
        frees := ["_clipPtr"]
        writeBacks := [.record "Box" "_clipPtr" "clip"]
        usesAllocs := true } := by
    simp only [marshal, hclass, marshalSchema]
    rw [hsize]
    decide +kernel
  have hfrees : (Wrapper.ofOperation drawContext drawOperation).map (·.frees) =
      .ok ["_titlePtr", "_dataPtr", "_clipPtr", "_outPtr"] := by
    simp only [Wrapper.ofOperation, drawOperation, List.mapM_cons, hclip]
    decide +kernel
  obtain ⟨w, hw, hfrees⟩ := map_eq_ok_iff.mp hfrees
  exact ⟨w, hw, hfrees, wrapper_is_balanced hw⟩

end JavaScript

end Bindery
