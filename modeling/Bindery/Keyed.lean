/-!
# Entries in key order

`Keyed α` is a list of entries in strictly ascending order of their keys, so a
key occurs at most once and two values with the same entries are equal. The order
is part of the type: every schema lists its types by name because it cannot do
otherwise.
-/

namespace Bindery

/-- Inserts an entry in key order, in place of an entry with the same key. -/
def insertEntry {κ α : Type} [DecidableEq κ] [LT κ] [DecidableLT κ] (key : κ) (value : α) :
    List (κ × α) → List (κ × α)
  | [] => [(key, value)]
  | (k, v) :: rest =>
    if key = k then (key, value) :: rest
    else if key < k then (key, value) :: (k, v) :: rest
    else (k, v) :: insertEntry key value rest

/-- The value under a key. -/
def lookupEntry {κ α : Type} [BEq κ] (key : κ) (entries : List (κ × α)) : Option α :=
  (entries.find? fun e => e.1 == key).map (·.2)

/-! ### Looking up -/

section Lookup

variable {κ α : Type} [DecidableEq κ]

theorem lookupEntry_cons [BEq κ] [LawfulBEq κ] (key k : κ) (v : α) (rest : List (κ × α)) :
    lookupEntry key ((k, v) :: rest) = if k = key then some v else lookupEntry key rest := by
  rw [lookupEntry, List.find?_cons]
  by_cases h : k = key
  · rw [if_pos h, beq_iff_eq.2 h]
    rfl
  · rw [if_neg h, beq_false_of_ne h]
    rfl

/-- **Insertion changes what is found under its own key, and nothing else.** -/
theorem lookupEntry_insertEntry [BEq κ] [LawfulBEq κ] [LT κ] [DecidableLT κ] (key k : κ) (v : α)
    (entries : List (κ × α)) :
    lookupEntry key (insertEntry k v entries) =
      if k = key then some v else lookupEntry key entries := by
  induction entries with
  | nil => exact lookupEntry_cons key k v []
  | cons e rest ih =>
    obtain ⟨k', v'⟩ := e
    rw [insertEntry]
    split
    next heq =>
      subst heq
      rw [lookupEntry_cons, lookupEntry_cons]
      split <;> rfl
    next hne =>
      split
      next => rw [lookupEntry_cons]
      next =>
        rw [lookupEntry_cons, lookupEntry_cons, ih]
        by_cases h : k' = key
        · rw [if_pos h, if_pos h, if_neg fun hk => hne (hk.trans h.symm)]
        · rw [if_neg h, if_neg h]

end Lookup

/-! ### Order -/

/-- Entries in strictly ascending order of their keys. -/
def Ascending {α : Type} (entries : List (String × α)) : Prop :=
  entries.Pairwise fun a b => a.1 < b.1

/-- Of two different texts that are not in order, the other order holds. -/
theorem lt_of_not_lt_of_ne {a b : String} (h : ¬ a < b) (ne : a ≠ b) : b < a := by
  have hle : b ≤ a := String.not_lt.1 h
  exact Decidable.byContradiction fun hn => ne (String.le_antisymm (String.not_lt.1 hn) hle)

/-- An inserted list holds the new key and keys that were there before. -/
theorem mem_insertEntry {α : Type} {key : String} {value : α} {entries : List (String × α)}
    {e : String × α} (h : e ∈ insertEntry key value entries) :
    e = (key, value) ∨ e ∈ entries := by
  induction entries with
  | nil => simpa [insertEntry] using h
  | cons head rest ih =>
    simp only [insertEntry] at h
    split at h
    · rcases List.mem_cons.1 h with h | h
      · exact .inl h
      · exact .inr (List.mem_cons_of_mem _ h)
    · split at h
      · simpa using h
      · rcases List.mem_cons.1 h with h | h
        · exact .inr (by simp [h])
        · rcases ih h with h | h
          · exact .inl h
          · exact .inr (List.mem_cons_of_mem _ h)

/-- **Insertion keeps the order.** -/
theorem Ascending.insertEntry {α : Type} (key : String) (value : α)
    {entries : List (String × α)} (h : Ascending entries) :
    Ascending (insertEntry key value entries) := by
  induction entries with
  | nil => simp [Ascending, Bindery.insertEntry]
  | cons head rest ih =>
    obtain ⟨hd, tl⟩ := List.pairwise_cons.1 h
    simp only [Bindery.insertEntry]
    split
    · rename_i heq
      exact List.pairwise_cons.2 ⟨fun e he => by simpa [heq] using hd e he, tl⟩
    · rename_i hne
      split
      · rename_i hlt
        refine List.pairwise_cons.2 ⟨fun e he => ?_, h⟩
        rcases List.mem_cons.1 he with rfl | he
        · exact hlt
        · exact String.lt_trans hlt (hd e he)
      · rename_i hnlt
        refine List.pairwise_cons.2 ⟨fun e he => ?_, ih tl⟩
        rcases mem_insertEntry he with rfl | he
        · exact lt_of_not_lt_of_ne hnlt hne
        · exact hd e he

/-- A finite map from names, in name order. -/
structure Keyed (α : Type) where
  entries : List (String × α) := []
  ascending : Ascending entries := by exact List.Pairwise.nil

namespace Keyed

variable {α : Type}

/-- The map without entries. -/
def empty : Keyed α := ⟨[], List.Pairwise.nil⟩

instance : Inhabited (Keyed α) := ⟨empty⟩

@[ext] theorem ext {a b : Keyed α} (h : a.entries = b.entries) : a = b := by
  cases a; cases b; cases h; rfl

/-- The value under a name. -/
def get? (m : Keyed α) (name : String) : Option α := lookupEntry name m.entries

/-- Whether a name has a value. -/
def contains (m : Keyed α) (name : String) : Bool := (m.get? name).isSome

/-- The names in order. -/
def names (m : Keyed α) : List String := m.entries.map (·.1)

/-- The number of names. -/
def size (m : Keyed α) : Nat := m.entries.length

/-- The map with a name bound to a value, in place of what it was bound to. -/
def insert (m : Keyed α) (name : String) (value : α) : Keyed α where
  entries := insertEntry name value m.entries
  ascending := m.ascending.insertEntry name value

/-- The map with every value changed; a name keeps its place. -/
def map {β : Type} (f : α → β) (m : Keyed α) : Keyed β where
  entries := m.entries.map fun e => (e.1, f e.2)
  ascending := by
    have h := m.ascending
    simpa [Ascending, List.pairwise_map] using h

end Keyed

end Bindery
