import Bindery.Proofs.Nesting

/-!
# The order of the closure

The closure of some roots is written by one walk from its front to its end. A record is written
behind what the walk found inside of it, so everything that it holds stands in front of it. The
exception is a record that the walk is inside of at that time: there is a path from that one to
the record that is written, so the two lie on a cycle. Nothing is written that stands there
already or that the walk is inside of, so nothing is written twice:

* `InTurn` — each member of a list has a property with regard to those in front of it;
* `appends_closeRecord` — what a part of the walk writes: new records, each in its turn
  (`Appends`);
* `nodup_recordClosure`, `inTurn_recordClosure` — so the closure has every record once, and where
  no record of it holds itself, all that a record holds stands in front of it;
* `isClosure_recordClosure` — what the closure of any roots is, in any schema.
-/

namespace Bindery

open Relation

/-! ### One after the other -/

section InTurn

variable {α β : Type} {P : List α → α → Prop}

/-- **Each member in its turn**: it has the property with regard to what stands in front of it,
in the list and before the list. -/
def InTurn (P : List α → α → Prop) (front : List α) : List α → Prop
  | [] => True
  | x :: xs => P front x ∧ InTurn P (front ++ [x]) xs

theorem inTurn_append {front xs ys : List α} :
    InTurn P front (xs ++ ys) ↔ InTurn P front xs ∧ InTurn P (front ++ xs) ys := by
  induction xs generalizing front with
  | nil => simp [InTurn]
  | cons x xs ih => simp [InTurn, ih, and_assoc]

theorem inTurn_singleton {front : List α} {x : α} : InTurn P front [x] ↔ P front x :=
  and_iff_left trivial

theorem InTurn.imp {Q : List α → α → Prop} {front xs : List α} (h : InTurn P front xs)
    (step : ∀ ys, ∀ x ∈ xs, P ys x → Q ys x) : InTurn Q front xs := by
  induction xs generalizing front with
  | nil => exact trivial
  | cons x xs ih =>
    exact ⟨step front x List.mem_cons_self h.1,
      ih h.2 fun ys y hy => step ys y (List.mem_cons_of_mem x hy)⟩

/-- Several members for each: those that come from one member have their turns where it has
its own. -/
theorem InTurn.flatMap {Q : List β → β → Prop} {g : α → List β} {first : List β}
    {front xs : List α} (h : InTurn P front xs)
    (step : ∀ ys, ∀ x ∈ xs, P ys x → InTurn Q (first ++ ys.flatMap g) (g x)) :
    InTurn Q (first ++ front.flatMap g) (xs.flatMap g) := by
  induction xs generalizing front with
  | nil => exact trivial
  | cons x xs ih =>
    have hrest := ih h.2 fun ys y hy => step ys y (List.mem_cons_of_mem x hy)
    rw [List.flatMap_append, List.flatMap_singleton, ← List.append_assoc] at hrest
    rw [List.flatMap_cons]
    exact inTurn_append.mpr ⟨step front x List.mem_cons_self h.1, hrest⟩

/-- The turn of one member. -/
theorem InTurn.of_split {front before behind : List α} {x : α}
    (h : InTurn P front (before ++ x :: behind)) : P (front ++ before) x :=
  (inTurn_append.mp h).2.1

end InTurn

namespace Schema

variable {types : Schema} {visiting before added : List String} {name : String}

/-! ### What the walk writes -/

/-- What a record holds stands in front of it, or leads back to it. -/
def Preceded (types : Schema) (front : List String) (n : String) : Prop :=
  ∀ m, types.Holds n m → m ∈ front ∨ TransGen types.Holds m n

/-- **What a part of the walk writes** behind the records `before`, inside of the records
`visiting`. -/
structure Appends (types : Schema) (visiting before added : List String) : Prop where
  nodup : added.Nodup
  fresh : ∀ n ∈ added, n ∉ before ∧ n ∉ visiting
  inTurn : InTurn types.Preceded before added

namespace Appends

theorem nil : types.Appends visiting before [] where
  nodup := List.nodup_nil
  fresh := nofun
  inTurn := trivial

/-- One part of the walk after the other. -/
theorem append {added' : List String} (h : types.Appends visiting before added)
    (h' : types.Appends visiting (before ++ added) added') :
    types.Appends visiting before (added ++ added') where
  nodup := by
    refine List.nodup_append.mpr ⟨h.nodup, h'.nodup, fun n hn m hm heq => ?_⟩
    exact (h'.fresh m hm).1 (List.mem_append_right _ (heq ▸ hn))
  fresh n hn := by
    rcases List.mem_append.mp hn with hn | hn
    · exact h.fresh n hn
    · obtain ⟨hbefore, hvisiting⟩ := h'.fresh n hn
      exact ⟨fun hmem => hbefore (List.mem_append_left _ hmem), hvisiting⟩
  inTurn := inTurn_append.mpr ⟨h.inTurn, h'.inTurn⟩

/-- The record itself, behind what was found inside of it. -/
theorem enter (h : types.Appends (name :: visiting) before added) (hbefore : name ∉ before)
    (hvisiting : name ∉ visiting) (hheld : types.Preceded (before ++ added) name) :
    types.Appends visiting before (added ++ [name]) where
  nodup := by
    refine List.nodup_append.mpr ⟨h.nodup, List.nodup_singleton name, fun n hn m hm heq => ?_⟩
    rw [heq, List.mem_singleton.mp hm] at hn
    exact (h.fresh name hn).2 List.mem_cons_self
  fresh n hn := by
    rcases List.mem_append.mp hn with hn | hn
    · exact ⟨(h.fresh n hn).1, fun hmem => (h.fresh n hn).2 (List.mem_cons_of_mem _ hmem)⟩
    · rw [List.mem_singleton.mp hn]
      exact ⟨hbefore, hvisiting⟩
  inTurn := inTurn_append.mpr ⟨h.inTurn, inTurn_singleton.mpr hheld⟩

end Appends

/-- From everything that the walk is inside of there is a path to the name, if that is a
record. -/
def Inside (types : Schema) (visiting : List String) (name : String) : Prop :=
  types.isRecord name = true → ∀ outer ∈ visiting, TransGen types.Holds outer name

/-- The walk through fields, when the walk to the records that they hold is understood. -/
theorem appends_closeFields {fields : List Field} (found : List String)
    (hrecord : ∀ found, ∀ n ∈ fields.filterMap Field.reference?,
      ∃ added, closeRecord types visiting found n = found ++ added ∧
        types.Appends visiting found added) :
    ∃ added, closeFields types visiting found fields = found ++ added ∧
      types.Appends visiting found added := by
  induction fields generalizing found with
  | nil =>
    rw [closeFields]
    exact ⟨[], (List.append_nil found).symm, .nil⟩
  | cons f rest ih =>
    rw [closeFields]
    -- A field that refers to nothing appends nothing.
    cases hf : f.type with
    | named n =>
      rw [List.filterMap_cons_some (Field.reference?_eq_some_iff.mpr hf)] at hrecord
      obtain ⟨added, hone, happends⟩ := hrecord found n List.mem_cons_self
      obtain ⟨added', hrest, happends'⟩ := ih (found ++ added) fun found m hm =>
        hrecord found m (List.mem_cons_of_mem n hm)
      refine ⟨added ++ added', ?_, happends.append happends'⟩
      change closeFields types visiting (closeRecord types visiting found n) rest = _
      rw [hone, hrest, List.append_assoc]
    | primitive _ | string | vector _ =>
      rw [List.filterMap_cons_none (by simp [Field.reference?, hf])] at hrecord
      exact ih found hrecord

/-- **What the walk to one record writes.** The number of names that are left shrinks with every
step inward. -/
theorem appends_closeRecord (found : List String) (hinside : types.Inside visiting name) :
    ∃ added, closeRecord types visiting found name = found ++ added ∧
      types.Appends visiting found added := by
  induction hn : types.unvisited visiting using Nat.strong_induction_on
    generalizing visiting found name with
  | _ n ih =>
    subst hn
    have hstay : ∃ added, found = found ++ added ∧ types.Appends visiting found added :=
      ⟨[], (List.append_nil found).symm, .nil⟩
    rw [closeRecord]
    by_cases hfound : found.contains name = true
    · rw [if_pos hfound]
      exact hstay
    rw [if_neg hfound]
    by_cases hvisiting : visiting.contains name = true
    · rw [dif_pos hvisiting]
      exact hstay
    rw [dif_neg hvisiting]
    split
    · exact hstay
    next d hd =>
    cases hrec : d.isRecord with
    | false =>
      rw [if_neg Bool.false_ne_true]
      exact hstay
    | true =>
      rw [if_pos rfl]
      have hlt : types.unvisited (name :: visiting) < types.unvisited visiting :=
        unvisited_cons_lt hd (by simpa using hvisiting)
      have hpaths := hinside (isRecord_iff.mpr ⟨d, hd, hrec⟩)
      -- what the record holds can be reached from it, and from all that it is inside of
      have hinner : ∀ m ∈ d.fields.filterMap Field.reference?,
          types.Inside (name :: visiting) m := by
        intro m hm hmrec outer houter
        have hstep : types.Holds name m := ⟨d, hd, hrec, hm, hmrec⟩
        rcases List.mem_cons.mp houter with rfl | houter
        · exact .single hstep
        · exact (hpaths outer houter).tail hstep
      obtain ⟨added, hfields, happends⟩ := appends_closeFields found fun found m hm =>
        ih _ hlt found (hinner m hm) rfl
      have hheld : types.Preceded (found ++ added) name := by
        intro m hm
        obtain ⟨d', hd', -, hmem, hmrec⟩ := hm
        obtain rfl : d = d' := Option.some.inj (hd.symm.trans hd')
        have hwalk : types.Walk (name :: visiting) (d.fields.filterMap Field.reference?) found
            (closeFields types (name :: visiting) found d.fields) :=
          walk_closeFields (walk_closeRecord (name :: visiting)) d.fields found
        rw [hfields] at hwalk
        refine (hwalk.complete m hmem hmrec).imp_right fun houter => ?_
        rcases List.mem_cons.mp houter with rfl | houter
        · exact .single ⟨d, hd, hrec, hmem, hmrec⟩
        · exact hpaths m houter
      refine ⟨added ++ [name], ?_, happends.enter ?_ ?_ hheld⟩
      · rw [hfields, List.append_assoc]
      · simpa using hfound
      · simpa using hvisiting

/-- What the walk from several roots writes. -/
theorem appends_foldl (roots found : List String) :
    ∃ added, roots.foldl (closeRecord types []) found = found ++ added ∧
      types.Appends [] found added := by
  induction roots generalizing found with
  | nil => exact ⟨[], (List.append_nil found).symm, .nil⟩
  | cons root rest ih =>
    have hinside : types.Inside [] root := fun _ => nofun
    obtain ⟨added, hone, happends⟩ := appends_closeRecord found hinside
    obtain ⟨added', hrest, happends'⟩ := ih (found ++ added)
    refine ⟨added ++ added', ?_, happends.append happends'⟩
    rw [List.foldl_cons, hone, hrest, List.append_assoc]

/-! ### The closure -/

theorem appends_recordClosure (types : Schema) (roots : List String) :
    types.Appends [] [] (types.recordClosure roots) := by
  obtain ⟨added, hadded, happends⟩ :
      ∃ added, roots.foldl (closeRecord types []) [] = [] ++ added ∧ types.Appends [] [] added :=
    appends_foldl roots []
  rw [recordClosure, hadded]
  exact happends

/-- **The closure has every record once.** -/
theorem nodup_recordClosure (types : Schema) (roots : List String) :
    (types.recordClosure roots).Nodup :=
  (appends_recordClosure types roots).nodup

/-- **What a record of the closure holds stands in front of it** where no record of the closure
holds itself. -/
theorem inTurn_recordClosure {roots : List String}
    (acyclic : ∀ n ∈ types.recordClosure roots, ¬ TransGen types.Holds n n) :
    InTurn (fun front n => ∀ m, types.Holds n m → m ∈ front) [] (types.recordClosure roots) := by
  refine (appends_recordClosure types roots).inTurn.imp fun front n hn hpreceded m hm => ?_
  -- a record that leads back to the one it is held by makes a cycle
  exact (hpreceded m hm).resolve_right fun hback => acyclic n hn (.head hm hback)

/-- **The closure of roots**: the records that can be reached, each once, and where no cycle can
be reached each behind all that it holds. -/
structure IsClosure (types : Schema) (roots closure : List String) : Prop where
  nodup : closure.Nodup
  mem_iff : ∀ n, n ∈ closure ↔
    types.isRecord n = true ∧ ∃ root ∈ roots, ReflTransGen types.Holds root n
  ordered : (∀ root ∈ roots, ∀ c, ¬ types.ReachesCycle root c) →
    ∀ before n behind, closure = before ++ n :: behind → ∀ m, types.Holds n m → m ∈ before

theorem isClosure_recordClosure (types : Schema) (roots : List String) :
    types.IsClosure roots (types.recordClosure roots) where
  nodup := nodup_recordClosure types roots
  mem_iff n := mem_recordClosure_iff
  ordered acyclic before n behind hsplit := by
    have hinTurn : InTurn (fun front n => ∀ m, types.Holds n m → m ∈ front) []
        (types.recordClosure roots) := by
      refine inTurn_recordClosure fun n hn hcycle => ?_
      obtain ⟨-, root, hroot, hpath⟩ := mem_recordClosure_iff.mp hn
      exact acyclic root hroot n ⟨hpath, hcycle⟩
    rw [hsplit] at hinTurn
    exact hinTurn.of_split

end Schema

end Bindery
