import Bindery.Abi.Typedef
import Bindery.Proofs.Schema

/-!
# The order of type definitions

The header defines the schema types one after the other, and a C compiler takes a field
by value only if the type of the field has been defined further up. Definitions are
sorted by kind and then by name (`pairwise_typedefOrder`), and the order looks at nothing
else, so where a type stands relative to another is decided by their kinds and names
alone (`typedef_precedes_iff`).

It follows exactly when a header defines every type before a record holds it by value
(`definesBeforeUse_iff`): an enumeration always comes first, a struct comes before every
table, and two records of one kind have to be named in the order in which one holds the
other. A struct may hold a table, and names are free, so a schema without any cycle can
fail this (`not_definesBeforeUse_lineSchema`).
-/

namespace Bindery

/-- In a list sorted by an asymmetric relation, one member stands before another exactly
when the relation holds. -/
theorem pair_sublist_iff {α : Type} {r : α → α → Prop} {xs : List α} (sorted : xs.Pairwise r)
    (asymm : ∀ a b, r a b → ¬ r b a) {a b : α} (ha : a ∈ xs) (hb : b ∈ xs) :
    [a, b].Sublist xs ↔ r a b := by
  constructor
  · intro hsub
    have hpair : [a, b].Pairwise r := sorted.sublist hsub
    exact List.pairwise_pair.mp hpair
  · intro hr
    obtain ⟨front, back, rfl⟩ := List.append_of_mem hb
    have hback := (List.pairwise_cons.mp (List.pairwise_append.mp sorted).2.1).1
    -- `a` is neither `b` nor behind it, so it stands in front
    have hfront : a ∈ front := by
      rcases List.mem_append.mp ha with hfront | hrest
      · exact hfront
      · rcases List.mem_cons.mp hrest with rfl | hlater
        · exact absurd hr (asymm a a hr)
        · exact absurd (hback a hlater) (asymm a b hr)
    have hsub : [a].Sublist front := List.singleton_sublist.mpr hfront
    have hsub' : [b].Sublist (b :: back) := List.singleton_sublist.mpr List.mem_cons_self
    exact hsub.append hsub'

namespace Abi

variable {types : Schema} {m n : String} {d e : TypeDef}

/-! ### Kind, then name -/

/-- The place of a kind among the definitions of the header. A union has none, and counts
as last. -/
def kindRank : TypeKind → Nat
  | .enum => 0
  | .struct => 1
  | .table => 2
  | .union => 3

/-- **Kind, then name**: the order in which types are defined. -/
def DefinedEarlier (a b : String × TypeDef) : Prop :=
  kindRank a.2.kind < kindRank b.2.kind ∨ a.2.kind = b.2.kind ∧ a.1 < b.1

theorem DefinedEarlier.asymm (a b : String × TypeDef) (h : DefinedEarlier a b) :
    ¬ DefinedEarlier b a := by
  rintro (hlt | ⟨hkind, hname⟩)
  · rcases h with hgt | ⟨hkind, -⟩
    · exact absurd hlt (Nat.lt_asymm hgt)
    · rw [hkind] at hlt
      exact Nat.lt_irrefl _ hlt
  · rcases h with hgt | ⟨-, hgt⟩
    · rw [hkind] at hgt
      exact Nat.lt_irrefl _ hgt
    · exact String.lt_asymm hname hgt

theorem kind_of_mem_ofKind {kind : TypeKind} {a : String × TypeDef} (h : a ∈ types.ofKind kind) :
    a.2.kind = kind := by
  simpa using (List.mem_filter.mp h).2

/-- The definitions of one kind are in name order. -/
theorem pairwise_ofKind (kind : TypeKind) : (types.ofKind kind).Pairwise DefinedEarlier := by
  have hsorted : (types.ofKind kind).Pairwise fun a b => a.1 < b.1 := types.ascending.filter _
  refine hsorted.imp_of_mem fun {a b} ha hb hlt => Or.inr ⟨?_, hlt⟩
  rw [kind_of_mem_ofKind ha, kind_of_mem_ofKind hb]

/-- Definitions of an earlier kind come before definitions of a later one. -/
theorem definedEarlier_of_kinds {k k' : TypeKind} (hk : kindRank k < kindRank k')
    {a b : String × TypeDef} (ha : a ∈ types.ofKind k) (hb : b ∈ types.ofKind k') :
    DefinedEarlier a b := by
  refine Or.inl ?_
  rw [kind_of_mem_ofKind ha, kind_of_mem_ofKind hb]
  exact hk

/-- **The definitions are sorted by kind, then name.** -/
theorem pairwise_typedefOrder (types : Schema) :
    (typedefOrder types).Pairwise DefinedEarlier := by
  have hrecords : types.records.Pairwise DefinedEarlier :=
    List.pairwise_append.mpr ⟨pairwise_ofKind .struct, pairwise_ofKind .table,
      fun a ha b hb => definedEarlier_of_kinds (by decide) ha hb⟩
  refine List.pairwise_append.mpr ⟨pairwise_ofKind .enum, hrecords, fun a ha b hb => ?_⟩
  rcases List.mem_append.mp hb with hb | hb
  · exact definedEarlier_of_kinds (by decide) ha hb
  · exact definedEarlier_of_kinds (by decide) ha hb

/-- The header defines the enumerations and the records of the schema. -/
theorem mem_typedefOrder_iff :
    (n, d) ∈ typedefOrder types ↔
      types.get? n = some d ∧ (d.isEnum = true ∨ d.isRecord = true) := by
  rw [typedefOrder, List.mem_append, Schema.mem_records_iff, Schema.ofKind, List.mem_filter,
    Keyed.get?_eq_some_iff, TypeDef.isEnum]
  exact and_or_left.symm

/-- **Which of two definitions comes first.** -/
theorem typedef_precedes_iff (hm : (m, e) ∈ typedefOrder types)
    (hn : (n, d) ∈ typedefOrder types) :
    [(m, e), (n, d)].Sublist (typedefOrder types) ↔ DefinedEarlier (m, e) (n, d) :=
  pair_sublist_iff (pairwise_typedefOrder types) DefinedEarlier.asymm hm hn

/-! ### Definition before use -/

/-- **A record holds a type by value**: a field of it, not a vector, names the type. -/
def HoldsByValue (d : TypeDef) (m : String) : Prop :=
  d.isRecord = true ∧ ∃ f ∈ d.fields, f.type = .named m

/-- A type of the schema holds another by value. -/
def Contains (types : Schema) (n m : String) : Prop :=
  ∃ d, types.get? n = some d ∧ HoldsByValue d m

/-- **The header defines every type before a record holds it by value.** -/
def DefinesBeforeUse (types : Schema) : Prop :=
  ∀ n d m, types.get? n = some d → HoldsByValue d m →
    ∃ e, types.get? m = some e ∧ [(m, e), (n, d)].Sublist (typedefOrder types)

/-- **Kinds and names follow the nesting**: what a record holds by value is an enumeration,
or a struct in a table, or a record of the same kind with a smaller name. -/
def NamedInOrder (types : Schema) : Prop :=
  ∀ n d m, types.get? n = some d → HoldsByValue d m →
    ∃ e, types.get? m = some e ∧
      (e.kind = .enum ∨ e.kind = .struct ∧ d.kind = .table ∨ e.kind = d.kind ∧ m < n)

/-- What is sorted in front of a record. -/
theorem definedEarlier_record_iff (hd : d.isRecord = true) :
    DefinedEarlier (m, e) (n, d) ↔
      e.kind = .enum ∨ e.kind = .struct ∧ d.kind = .table ∨ e.kind = d.kind ∧ m < n := by
  unfold DefinedEarlier
  rw [← or_assoc]
  refine or_congr_left ?_
  cases hk : d.kind with
  | enum => simp [TypeDef.isRecord, hk] at hd
  | union => simp [TypeDef.isRecord, hk] at hd
  | struct => cases e.kind <;> simp [kindRank]
  | table => cases e.kind <;> simp [kindRank]

/-- **What is defined in front of a record.** -/
theorem typedef_precedes_record_iff (hn : types.get? n = some d) (hd : d.isRecord = true)
    (hm : types.get? m = some e) :
    [(m, e), (n, d)].Sublist (typedefOrder types) ↔
      e.kind = .enum ∨ e.kind = .struct ∧ d.kind = .table ∨ e.kind = d.kind ∧ m < n := by
  have hmem : (n, d) ∈ typedefOrder types := mem_typedefOrder_iff.mpr ⟨hn, .inr hd⟩
  constructor
  · -- what stands in front of a definition is itself one of the definitions
    intro hsub
    have hmem' : (m, e) ∈ typedefOrder types := hsub.subset List.mem_cons_self
    have hearlier := (typedef_precedes_iff hmem' hmem).mp hsub
    exact (definedEarlier_record_iff hd).mp hearlier
  · intro horder
    -- each of the three ways to be in order makes the type one that the header defines
    have hmem' : (m, e) ∈ typedefOrder types := by
      refine mem_typedefOrder_iff.mpr ⟨hm, ?_⟩
      rcases horder with hkind | ⟨hkind, -⟩ | ⟨hkind, -⟩
      · exact .inl (by simp [TypeDef.isEnum, hkind])
      · exact .inr (by simp [TypeDef.isRecord, hkind])
      · exact .inr (by simpa [TypeDef.isRecord, hkind] using hd)
    have hearlier := (definedEarlier_record_iff hd).mpr horder
    exact (typedef_precedes_iff hmem' hmem).mpr hearlier

/-- **The header defines every type before its use exactly when kinds and names follow the
nesting.** -/
theorem definesBeforeUse_iff (types : Schema) : DefinesBeforeUse types ↔ NamedInOrder types := by
  constructor
  · intro hdefines n d m hn hholds
    obtain ⟨e, hm, hsub⟩ := hdefines n d m hn hholds
    exact ⟨e, hm, (typedef_precedes_record_iff hn hholds.1 hm).mp hsub⟩
  · intro hnamed n d m hn hholds
    obtain ⟨e, hm, horder⟩ := hnamed n d m hn hholds
    exact ⟨e, hm, (typedef_precedes_record_iff hn hholds.1 hm).mpr horder⟩

/-! ### A use before the definition -/

/-- A point. -/
def pointDef : TypeDef :=
  { kind := .struct, scope := "Geo", fields := [⟨"x", .primitive .float32⟩] }

/-- A line between two points. -/
def lineDef : TypeDef :=
  { kind := .struct, scope := "Geo",
    fields := [⟨"start", .named "Geo.Point"⟩, ⟨"stop", .named "Geo.Point"⟩] }

/-- Lines and points. The name of what is held comes later in the alphabet. -/
def lineSchema : Schema :=
  (Keyed.empty.insert "Geo.Line" lineDef).insert "Geo.Point" pointDef

theorem get?_lineSchema (h : lineSchema.get? n = some d) :
    n = "Geo.Line" ∧ d = lineDef ∨ n = "Geo.Point" ∧ d = pointDef := by
  have hentries : lineSchema.entries = [("Geo.Line", lineDef), ("Geo.Point", pointDef)] := by
    decide +kernel
  have hmem : (n, d) ∈ lineSchema.entries := Keyed.get?_eq_some_iff.mp h
  rw [hentries] at hmem
  simpa using hmem

/-- Only the line holds anything by value, and what it holds is a point. -/
theorem contains_lineSchema (h : Contains lineSchema n m) : n = "Geo.Line" ∧ m = "Geo.Point" := by
  obtain ⟨d, hd, -, f, hf, htype⟩ := h
  rcases get?_lineSchema hd with ⟨rfl, rfl⟩ | ⟨rfl, rfl⟩
  · have hpoint : f.type = .named "Geo.Point" := by
      rcases List.mem_pair.mp hf with rfl | rfl <;> rfl
    exact ⟨rfl, FieldType.named.inj (htype.symm.trans hpoint)⟩
  · rw [List.mem_singleton.mp hf] at htype
    exact nomatch htype

/-- **A closed schema without cycles whose header uses a type before its definition.** -/
theorem not_definesBeforeUse_lineSchema :
    lineSchema.Closed ∧ (∀ n, ¬ Relation.TransGen (Contains lineSchema) n n) ∧
      ¬ DefinesBeforeUse lineSchema := by
  refine ⟨by decide +kernel, ?_, ?_⟩
  · intro n hcycle
    -- a cycle starts at a line and ends at a point
    obtain ⟨_, hfirst, -⟩ := Relation.TransGen.head'_iff.mp hcycle
    obtain ⟨_, -, hlast⟩ := Relation.TransGen.tail'_iff.mp hcycle
    have hline := (contains_lineSchema hfirst).1
    have hpoint := (contains_lineSchema hlast).2
    rw [hline] at hpoint
    exact absurd hpoint (by decide)
  · intro hdefines
    have hline : lineSchema.get? "Geo.Line" = some lineDef := by decide +kernel
    have hholds : HoldsByValue lineDef "Geo.Point" := ⟨rfl, _, List.mem_cons_self, rfl⟩
    obtain ⟨e, hpoint, hsub⟩ := hdefines _ _ _ hline hholds
    obtain rfl : e = pointDef := by
      rcases get?_lineSchema hpoint with ⟨hname, -⟩ | ⟨-, he⟩
      · exact absurd hname (by decide)
      · exact he
    -- both are structs, so the smaller name would have to be that of the point
    have horder := (typedef_precedes_record_iff hline rfl hpoint).mp hsub
    exact absurd horder (by decide)

end Abi

end Bindery
