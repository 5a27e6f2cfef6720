import Bindery.Proofs.Schema.Parsing

/-!
# What definitions form

Definitions are added one after the other, and the references in them are completed afterwards,
against the names of all of them. A schema lists its types in name order, so it is determined by
which entries it has (`Keyed.eq_of_perm`), and completion only asks which names there are
(`qualifyDef_congr`). So the order of the definitions leaves no trace in the schema:

* `ofDefinitions_eq_ok_iff` — the schema of some definitions has one entry for each of them, with
  its references completed, and there is one exactly when no name is defined twice;
* `exists_ofDefinitions_eq_error` — otherwise a name is reported that is defined twice.
-/

namespace Bindery

/-- Two maps with the same entries are equal, as both list them in name order. -/
theorem Keyed.eq_of_perm {α : Type} {m m' : Keyed α} (h : m.entries.Perm m'.entries) : m = m' := by
  refine Keyed.ext (List.Perm.eq_of_pairwise ?_ m.ascending m'.ascending h)
  intro a b _ _ hlt hgt
  -- no two entries stand in both orders
  exact absurd (String.lt_trans hlt hgt) (String.lt_irrefl a.1)

namespace Schema

/-! ### Completing references -/

section Congruence

variable {known known' : List String} (h : ∀ n, n ∈ known ↔ n ∈ known')

include h

theorem qualifyName_congr (scope name : String) :
    qualifyName known scope name = qualifyName known' scope name := by
  have hcontains : ∀ n, known.contains n = known'.contains n := by
    intro n
    rw [Bool.eq_iff_iff, List.contains_iff_mem, List.contains_iff_mem]
    exact h n
  simp only [qualifyName, hcontains]

theorem qualifyType_congr (scope : String) (t : FieldType) :
    qualifyType known scope t = qualifyType known' scope t := by
  induction t with
  | primitive p => rfl
  | string => rfl
  | vector element ih => rw [qualifyType, qualifyType, ih]
  | named name => rw [qualifyType, qualifyType, qualifyName_congr h]

/-- **Completion asks which names there are** and nothing else. -/
theorem qualifyDef_congr (d : TypeDef) : qualifyDef known d = qualifyDef known' d := by
  unfold qualifyDef
  simp only [qualifyType_congr h]

end Congruence

/-- **The entries of the schema that definitions form**: each one with its references completed
against the names of all. -/
def schemaEntries (defs : List (String × TypeDef)) : List (String × TypeDef) :=
  defs.map fun e => (e.1, qualifyDef (defs.map Prod.fst) e.2)

/-- The same definitions in another order form the same entries in another order. -/
theorem schemaEntries_perm {defs defs' : List (String × TypeDef)} (h : defs.Perm defs') :
    (schemaEntries defs).Perm (schemaEntries defs') := by
  have hnames : ∀ n, n ∈ defs.map Prod.fst ↔ n ∈ defs'.map Prod.fst :=
    fun n => (h.map Prod.fst).mem_iff
  have hentry : (fun e : String × TypeDef => (e.1, qualifyDef (defs.map Prod.fst) e.2)) =
      fun e => (e.1, qualifyDef (defs'.map Prod.fst) e.2) := by
    funext e
    rw [qualifyDef_congr hnames]
  rw [schemaEntries, schemaEntries, hentry]
  exact h.map _

/-- A schema whose references are completed has the entries that its own definitions form. -/
theorem entries_qualify (types : Schema) :
    types.qualify.entries = schemaEntries types.entries := rfl

/-! ### Names that are defined twice -/

/-- Where names are repeated there is a first repetition. -/
theorem exists_repetition {α β : Type} {f : α → β} {xs : List α} (h : ¬ (xs.map f).Nodup) :
    ∃ earlier first again later, xs = earlier ++ again :: later ∧ (earlier.map f).Nodup ∧
      first ∈ earlier ∧ f first = f again := by
  -- From behind, as the first repetition is looked for.
  induction xs using List.reverseRecOn with
  | nil => exact absurd List.nodup_nil h
  | append_singleton xs x ih =>
    by_cases hxs : (xs.map f).Nodup
    · -- the last one is the first to repeat a name
      have hmem : f x ∈ xs.map f := by
        by_contra hnew
        refine h ?_
        rw [List.map_append, List.map_singleton, List.nodup_append]
        refine ⟨hxs, List.nodup_singleton _, ?_⟩
        intro a ha b hb hab
        rw [List.mem_singleton] at hb
        exact hnew (hb ▸ hab ▸ ha)
      obtain ⟨first, hfirst, hname⟩ := List.mem_map.mp hmem
      exact ⟨xs, first, x, [], rfl, hxs, hfirst, hname⟩
    · obtain ⟨earlier, first, again, later, hsplit, hnodup, hfirst, hname⟩ := ih hxs
      refine ⟨earlier, first, again, later ++ [x], ?_, hnodup, hfirst, hname⟩
      rw [hsplit, List.append_assoc, List.cons_append]

/-- **What is reported is defined twice**: by two of the definitions, in this order. -/
def Duplicate.Repeats (d : Duplicate) (defs : List (String × TypeDef)) : Prop :=
  ∃ first again : String × TypeDef, [first, again].Sublist defs ∧ first.1 = d.name ∧
    again.1 = d.name ∧ first.2.kind = d.first ∧ again.2.kind = d.second

/-- **Definitions that repeat a name** form no schema. -/
theorem exists_ofDefinitions_eq_error {defs : List (String × TypeDef)}
    (h : ¬ (defs.map Prod.fst).Nodup) :
    ∃ d : Duplicate, ofDefinitions defs = .error d ∧ d.Repeats defs := by
  obtain ⟨earlier, first, again, later, hsplit, hnodup, hfirst, hname⟩ := exists_repetition h
  refine ⟨⟨again.1, first.2.kind, again.2.kind⟩, ?_, first, again, ?_, hname, rfl, rfl, rfl⟩
  · rw [ofDefinitions, hsplit, defineAll_eq_error hnodup hfirst hname]
    rfl
  · -- one of the two is among the earlier ones, the other one right behind them
    rw [hsplit, ← List.singleton_append]
    exact (List.singleton_sublist.mpr hfirst).append (List.singleton_sublist.mpr List.mem_cons_self)

/-- **The schema of definitions.** It has the entries that the definitions make when all their names
are known, and there is one exactly when no name is defined twice. -/
theorem ofDefinitions_eq_ok_iff {defs : List (String × TypeDef)} {types : Schema} :
    ofDefinitions defs = .ok types ↔
      (defs.map Prod.fst).Nodup ∧ types.entries.Perm (schemaEntries defs) := by
  by_cases hnodup : (defs.map Prod.fst).Nodup
  · obtain ⟨defined, hok, hperm⟩ := exists_ofDefinitions hnodup
    have hentries : defined.qualify.entries.Perm (schemaEntries defs) := by
      rw [entries_qualify]
      exact schemaEntries_perm hperm
    rw [hok, Except.ok.injEq, and_iff_right hnodup]
    constructor
    · rintro rfl
      exact hentries
    · intro h
      exact Keyed.eq_of_perm (hentries.trans h.symm)
  · obtain ⟨d, herror, -⟩ := exists_ofDefinitions_eq_error hnodup
    refine iff_of_false ?_ fun h => hnodup h.1
    rw [herror]
    exact nofun

end Schema

end Bindery
