import Bindery.Schema.Basic

/-!
# Walking through a schema

A walk through records keeps the names it is inside of. Each of them is a name of
the schema, so the number of names that are left shrinks with every step inward,
and the walk ends.
-/

namespace Bindery.Schema

/-- The names of the schema outside a list. -/
def unvisited (types : Schema) (visiting : List String) : Nat :=
  (types.names.filter fun n => !visiting.contains n).length

theorem mem_names_of_get? {types : Schema} {name : String} {d : TypeDef}
    (h : types.get? name = some d) : name ∈ types.names := by
  simp only [Keyed.get?, lookupEntry, Option.map_eq_some_iff] at h
  obtain ⟨e, he, _⟩ := h
  have hm := List.mem_of_find?_eq_some he
  have hk := List.find?_some he
  simp only [beq_iff_eq] at hk
  simp only [Keyed.names, List.mem_map]
  exact ⟨e, hm, hk⟩

theorem unvisited_cons_lt {types : Schema} {visiting : List String} {name : String} {d : TypeDef}
    (h : types.get? name = some d) (hv : visiting.contains name = false) :
    types.unvisited (name :: visiting) < types.unvisited visiting := by
  have hm := mem_names_of_get? h
  unfold unvisited
  have hsub : (types.names.filter fun n => !(name :: visiting).contains n)
      = (types.names.filter fun n => !visiting.contains n).filter (· ≠ name) := by
    rw [List.filter_filter]
    congr 1
    funext n
    by_cases hn : n = name <;> simp [hn]
  rw [hsub]
  refine List.length_filter_lt_length_iff_exists.2 ⟨name, ?_, by simp⟩
  simp only [List.mem_filter, hm, hv, Bool.not_false, and_self]

end Bindery.Schema
