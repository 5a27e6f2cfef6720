import Bindery.Schema.Basic
import Mathlib

/-!
# Finding by name

Slots are found by the first match of a name, and so are the types of a schema. Where
names are distinct, the first match is the only one, and finding a name is the same as
having an entry with it (`find?_name_eq_some`, `Keyed.get?_eq_some_iff`). A schema has
distinct names because its entries ascend.
-/

namespace Bindery

/-- Among distinct names, an entry is the first one with its name. -/
theorem find?_name_eq_some {α : Type} {name : α → String} {xs : List α}
    (h : (xs.map name).Nodup) {x : α} (hx : x ∈ xs) :
    xs.find? (fun y => name y == name x) = some x := by
  cases hfind : xs.find? (fun y => name y == name x) with
  | none =>
    have hnone := List.find?_eq_none.mp hfind x hx
    exact absurd (beq_self_eq_true (name x)) hnone
  | some y =>
    have hname : name y = name x := by simpa using List.find?_some hfind
    rw [List.inj_on_of_nodup_map h (List.mem_of_find?_eq_some hfind) hx hname]

namespace Keyed

variable {α : Type}

theorem nodup_names (m : Keyed α) : m.names.Nodup := by
  rw [names, List.Nodup, List.pairwise_map]
  refine m.ascending.imp fun {a b} hlt heq => ?_
  rw [heq] at hlt
  exact String.lt_irrefl b.1 hlt

/-- A name is bound to the value of its only entry. -/
theorem get?_eq_some_iff {m : Keyed α} {name : String} {value : α} :
    m.get? name = some value ↔ (name, value) ∈ m.entries := by
  rw [get?, lookupEntry, Option.map_eq_some_iff]
  constructor
  · rintro ⟨e, he, rfl⟩
    obtain rfl : e.1 = name := by simpa using List.find?_some he
    exact List.mem_of_find?_eq_some he
  · intro hmem
    exact ⟨(name, value), find?_name_eq_some m.nodup_names hmem, rfl⟩

end Keyed

namespace Schema

variable {types : Schema} {n : String}

/-- The records are the structs and the tables. -/
theorem mem_records_iff {d : TypeDef} :
    (n, d) ∈ types.records ↔ types.get? n = some d ∧ d.isRecord = true := by
  rw [Keyed.get?_eq_some_iff, records, ofKind, ofKind, TypeDef.isRecord]
  simp only [List.mem_append, List.mem_filter, decide_eq_true_eq, Bool.or_eq_true]
  exact and_or_left.symm

/-- A record is no enumeration. -/
theorem isEnum_eq_false_of_isRecord (h : types.isRecord n = true) : types.isEnum n = false := by
  unfold isRecord at h
  unfold isEnum
  cases hd : types.get? n with
  | none => rfl
  | some d => cases hk : d.kind <;> simp [hd, TypeDef.isRecord, TypeDef.isEnum, hk] at h ⊢

theorem isEnum_iff : types.isEnum n = true ↔ ∃ d, types.get? n = some d ∧ d.isEnum = true := by
  unfold isEnum
  cases types.get? n <;> simp

theorem isRecord_iff :
    types.isRecord n = true ↔ ∃ d, types.get? n = some d ∧ d.isRecord = true := by
  unfold isRecord
  cases types.get? n <;> simp

/-! ### Closed schemas -/

/-- Whether every name in a field's type, below vectors too, is that of an enumeration or a
record. -/
def Resolves (types : Schema) : FieldType → Prop
  | .primitive _ => True
  | .string => True
  | .vector element => types.Resolves element
  | .named n => types.isEnum n = true ∨ types.isRecord n = true

/-- **A closed schema**: every type that a field of a record names is an enumeration or a
record. -/
def Closed (types : Schema) : Prop :=
  ∀ n d, types.get? n = some d → d.isRecord = true → ∀ f ∈ d.fields, types.Resolves f.type

instance decidableResolves : (t : FieldType) → Decidable (types.Resolves t)
  | .primitive _ => isTrue trivial
  | .string => isTrue trivial
  | .vector element => decidableResolves element
  | .named n => inferInstanceAs (Decidable (types.isEnum n = true ∨ types.isRecord n = true))

theorem closed_iff_entries :
    types.Closed ↔ ∀ e ∈ types.entries, e.2.isRecord = true → ∀ f ∈ e.2.fields,
      types.Resolves f.type := by
  constructor
  · intro h e he
    exact h e.1 e.2 (Keyed.get?_eq_some_iff.mpr he)
  · intro h n d hd
    exact h (n, d) (Keyed.get?_eq_some_iff.mp hd)

instance : Decidable types.Closed := decidable_of_iff' _ closed_iff_entries

end Schema

end Bindery
