import Bindery.Proofs.Schema.References

/-!
# Completed references

A reference is *settled* in a namespace if there is nothing to complete: some type has it as its
name, or no type does and none has its completion either. Completing a name settles it, since a
completed name is that of a type, and a settled name is left alone. So completion does its work in
one go:

* `retarget_qualifyType` — completing a field type changes the name in it at most;
* `qualify_eq_self_iff` — a schema stays as it is exactly when all its references are settled;
* `qualify_settles` — what completion leaves, what it changes, and what it leads to, for every
  schema.

The completion of a name outside of all namespaces is the name itself. Whether there it could be
meant with a dot in front makes no difference for definitions that were scanned: no scanned name
begins with a dot (`dot_append_notMem_names`).
-/

namespace Bindery

/-! ### Names in field types -/

namespace FieldType

theorem retarget_of_target?_eq_none {t : FieldType} (h : t.target? = none) (name : String) :
    t.retarget name = t := by
  induction t with
  | primitive p => rfl
  | string => rfl
  | vector element ih => rw [retarget, ih h]
  | named n => cases h

end FieldType

/-- The definition without the names that its fields refer to. -/
def TypeDef.anonymous (d : TypeDef) : TypeDef :=
  { d with fields := d.fields.map fun f => { f with type := f.type.retarget "" } }

namespace Schema

/-- **The schema without the names that its fields refer to**: all that is left of it when only
these names are forgotten. -/
def anonymous (types : Schema) : Schema := types.map TypeDef.anonymous

section Names

variable (known : List String) (scope name : String)

/-- **The name is settled** in a namespace: it is known, or neither it nor its completion is. -/
def NameSettled : Prop := name ∈ known ∨ name ∉ known ∧ qualifiedName scope name ∉ known

variable {known scope name}

/-- A settled name is left alone. -/
theorem qualifyName_of_settled (h : NameSettled known scope name) :
    qualifyName known scope name = name := by
  rcases qualifyName_cases known scope name with heq | ⟨hunknown, hknown, -⟩
  · exact heq
  · rcases h with hname | ⟨-, hcompletion⟩
    · exact absurd hname hunknown
    · -- only outside of all namespaces a name is its own completion
      by_cases hscope : scope = ""
      · rw [qualifyName, if_pos (by simp [hscope])]
      · rw [qualifiedName, if_neg hscope] at hcompletion
        exact absurd hknown hcompletion

/-- **A completed name is settled.** -/
theorem settled_qualifyName : NameSettled known scope (qualifyName known scope name) := by
  by_cases hknown : name ∈ known
  · rw [qualifyName_of_settled (.inl hknown)]
    exact .inl hknown
  by_cases hcompletion : qualifiedName scope name ∈ known
  · -- then the name is in a namespace, and is completed
    have hscope : scope ≠ "" := by
      rintro rfl
      exact hknown hcompletion
    rw [qualifiedName, if_neg hscope] at hcompletion
    rw [qualifyName, if_neg (by simp [hscope, hknown]),
      if_pos (List.contains_iff_mem.mpr hcompletion)]
    exact .inl hcompletion
  · rw [qualifyName_of_settled (.inr ⟨hknown, hcompletion⟩)]
    exact .inr ⟨hknown, hcompletion⟩

end Names

/-! ### Field types -/

section Types

variable {known : List String} {scope : String} {t : FieldType}

/-- **Completion changes the name in a field type at most.** -/
theorem retarget_qualifyType (known : List String) (scope : String) (t : FieldType)
    (name : String) : (qualifyType known scope t).retarget name = t.retarget name := by
  induction t with
  | primitive p => rfl
  | string => rfl
  | vector element ih => rw [qualifyType, FieldType.retarget, FieldType.retarget, ih]
  | named n => rfl

theorem target?_qualifyType :
    (qualifyType known scope t).target? = t.target?.map (qualifyName known scope) := by
  induction t with
  | primitive p => rfl
  | string => rfl
  | vector element ih => exact ih
  | named n => rfl

/-- Without a name in it a field type is left alone. -/
theorem qualifyType_of_target?_eq_none (h : t.target? = none) : qualifyType known scope t = t := by
  have hnone : (qualifyType known scope t).target? = none := by
    rw [target?_qualifyType, h, Option.map_none]
  rw [← FieldType.retarget_of_target?_eq_none hnone "", retarget_qualifyType,
    FieldType.retarget_of_target?_eq_none h]

/-- With a settled name in it, or none, a field type is left alone. -/
theorem qualifyType_of_settled (h : ∀ n, t.target? = some n → NameSettled known scope n) :
    qualifyType known scope t = t := by
  cases htarget : t.target? with
  | none => exact qualifyType_of_target?_eq_none htarget
  | some n =>
    rw [qualifyType_eq_retarget htarget, qualifyName_of_settled (h n htarget),
      FieldType.retarget_eq_self htarget]

end Types

/-- **The second definition completes the first**, field by field: a field type stays, or the unknown
name in it is replaced by its completion, which is known. -/
def Completes (known : List String) (d d' : TypeDef) : Prop :=
  List.Forall₂ (fun f f' : Field => f'.type = f.type ∨
    ∃ n, f.type.target? = some n ∧ n ∉ known ∧ d.scope ++ "." ++ n ∈ known ∧
      f'.type = f.type.retarget (d.scope ++ "." ++ n)) d.fields d'.fields

theorem completes_qualifyDef (known : List String) (d : TypeDef) :
    Completes known d (qualifyDef known d) := by
  -- Field by field, by what its type refers to.
  rw [Completes, qualifyDef, List.forall₂_map_right_iff, List.forall₂_same]
  intro f _
  cases htarget : f.type.target? with
  | none => exact .inl (qualifyType_of_target?_eq_none htarget)
  | some n =>
    dsimp only
    rw [qualifyType_eq_retarget htarget]
    rcases qualifyName_cases known d.scope n with heq | ⟨hunknown, hknown, heq⟩
    · rw [heq]
      exact .inl (FieldType.retarget_eq_self htarget)
    · rw [heq]
      exact .inr ⟨n, rfl, hunknown, hknown, rfl⟩

/-! ### Schemas -/

theorem names_qualify (types : Schema) : types.qualify.names = types.names := by
  rw [Keyed.names, qualify, Keyed.map, List.map_map]
  rfl

/-- **Completion changes names in field types only**: types, values and fields stay, in their
order. -/
theorem anonymous_qualify (types : Schema) : types.qualify.anonymous = types.anonymous := by
  have hdef : ∀ d : TypeDef, (qualifyDef types.names d).anonymous = d.anonymous := by
    intro d
    simp only [TypeDef.anonymous, qualifyDef, List.map_map, Function.comp_def,
      retarget_qualifyType]
  apply Keyed.ext
  change (types.entries.map _).map _ = types.entries.map _
  rw [List.map_map]
  refine List.map_congr_left fun e _ => ?_
  exact Prod.ext rfl (hdef e.2)

/-- **All references are settled**, each in the namespace of its definition. -/
def IsSettled (types : Schema) : Prop :=
  ∀ e ∈ types.entries, ∀ f ∈ e.2.fields, ∀ n, f.type.target? = some n →
    NameSettled types.names e.2.scope n

/-- **Completion settles all references.** -/
theorem isSettled_qualify (types : Schema) : types.qualify.IsSettled := by
  intro e' he' f' hf' n hn
  -- completion keeps the names of the types, so what is known afterwards was known before
  rw [names_qualify]
  obtain ⟨e, -, rfl⟩ := List.mem_map.mp he'
  obtain ⟨f, -, rfl⟩ := List.mem_map.mp hf'
  rw [target?_qualifyType, Option.map_eq_some_iff] at hn
  obtain ⟨m, -, rfl⟩ := hn
  exact settled_qualifyName

/-- **A settled schema is left alone.** -/
theorem IsSettled.qualify_eq_self {types : Schema} (h : types.IsSettled) :
    types.qualify = types := by
  -- A definition whose names are all settled has nothing to complete.
  have hdef : ∀ e ∈ types.entries, qualifyDef types.names e.2 = e.2 := by
    intro e he
    have hfields : ∀ f ∈ e.2.fields,
        { f with type := qualifyType types.names e.2.scope f.type } = f := by
      intro f hf
      rw [qualifyType_of_settled (h e he f hf)]
    rw [qualifyDef, List.map_congr_left hfields, List.map_id']
  apply Keyed.ext
  change types.entries.map _ = types.entries
  have hentry : ∀ e ∈ types.entries, (e.1, qualifyDef types.names e.2) = e := by
    intro e he
    rw [hdef e he]
  rw [List.map_congr_left hentry, List.map_id']

/-- **Completion leaves a schema alone exactly when all its references are settled.** -/
theorem qualify_eq_self_iff {types : Schema} : types.qualify = types ↔ types.IsSettled := by
  refine ⟨fun h => ?_, IsSettled.qualify_eq_self⟩
  have hsettled := isSettled_qualify types
  rwa [h] at hsettled

/-- A schema that was read is completed already. -/
theorem IsRead.isSettled {types : Schema} (h : types.IsRead) : types.IsSettled := by
  cases h with
  | text parsed =>
    obtain ⟨defined, -, rfl⟩ := map_eq_ok_iff.mp parsed
    exact isSettled_qualify defined
  | files parsed =>
    obtain ⟨defined, -, hpure⟩ := bind_eq_ok_iff.mp parsed
    obtain rfl := pure_eq_ok_iff.mp hpure
    exact isSettled_qualify defined

/-! ### Scanned definitions -/

/-- **Every type of the schema was scanned**: it is defined in some text. -/
def IsScanned (types : Schema) : Prop := ∀ e ∈ types.entries, ∃ text, e ∈ definitionsIn text

/-- No scanned type has a name that begins with a dot. -/
theorem dot_append_notMem_names {types : Schema} (h : types.IsScanned) (name : String) :
    "." ++ name ∉ types.names := by
  intro hmem
  obtain ⟨e, he, hname⟩ := List.mem_map.mp hmem
  obtain ⟨text, htext⟩ := h e he
  obtain ⟨c, hc, halpha⟩ := (declares_of_mem_definitionsIn htext).name.first
  rw [hname, String.toList_append] at hc
  obtain rfl := Option.some.inj hc
  exact absurd halpha (by decide)

/-- **Completion is complete, and done in one go.** For every schema: completion changes nothing but
names in field types, each only if no type has it and some type has its completion; afterwards the
name in every field type, below vectors too, is that of a type, or neither it nor its completion is;
and a second time it changes nothing. -/
theorem qualify_settles (types : Schema) :
    types.qualify.anonymous = types.anonymous ∧
      List.Forall₂ (fun e e' => e'.1 = e.1 ∧ Completes types.names e.2 e'.2) types.entries
        types.qualify.entries ∧
      (∀ e ∈ types.qualify.entries, ∀ f ∈ e.2.fields, ∀ n, f.type.target? = some n →
        n ∈ types.qualify.names ∨
          n ∉ types.qualify.names ∧ qualifiedName e.2.scope n ∉ types.qualify.names ∧
            (types.IsScanned → e.2.scope ++ "." ++ n ∉ types.qualify.names)) ∧
      types.qualify.qualify = types.qualify := by
  have hsettled := isSettled_qualify types
  refine ⟨anonymous_qualify types, ?_, fun e he f hf n hn => ?_, hsettled.qualify_eq_self⟩
  · rw [qualify, Keyed.map, List.forall₂_map_right_iff, List.forall₂_same]
    exact fun e _ => ⟨rfl, completes_qualifyDef types.names e.2⟩
  · refine (hsettled e he f hf n hn).imp_right fun ⟨hname, hcompletion⟩ => ?_
    refine ⟨hname, hcompletion, fun scanned => ?_⟩
    by_cases hscope : e.2.scope = ""
    · rw [hscope, names_qualify]
      exact dot_append_notMem_names scanned n
    · rwa [qualifiedName, if_neg hscope] at hcompletion

/-- A text with references to no type, outside of all namespaces and inside one, and with a reference
to a type of the namespace. -/
def easelText : String :=
  "struct Dot \x7b pen: Pen; \x7d\nnamespace Geo;\nstruct Line \x7b ink: [Ink]; next: Line; \x7d"

def easelDot : TypeDef where
  kind := .struct
  fields := [⟨"pen", .named "Pen"⟩]

/-- The line of the text, with a name for the next one. -/
def easelLine (next : String) : TypeDef where
  kind := .struct
  scope := "Geo"
  fields := [⟨"ink", .vector (.named "Ink")⟩, ⟨"next", .named next⟩]

/-- The types of the text, with the references as they are written. -/
def easelTypes : Schema := (Keyed.empty.insert "Dot" easelDot).insert "Geo.Line" (easelLine "Line")

theorem isScanned_easel : easelTypes.IsScanned := by
  have htext : definitionsIn easelText = easelTypes.entries := by
    unfold easelText
    rw [definitionsIn_eq, String.toList_ofList]
    decide +kernel
  intro e he
  rw [← htext] at he
  exact ⟨easelText, he⟩

theorem entries_qualify_easel :
    easelTypes.qualify.entries = [("Dot", easelDot), ("Geo.Line", easelLine "Geo.Line")] := by
  cbv

/-- In the completed schema the next line is one of the namespace. The ink of a line stays as it is
written, and so does the pen of a dot. -/
theorem qualify_settles_easel :
    easelTypes.IsScanned ∧ ("Geo.Line", easelLine "Geo.Line") ∈ easelTypes.qualify.entries ∧
      "Ink" ∉ easelTypes.qualify.names ∧ "Geo.Ink" ∉ easelTypes.qualify.names ∧
      ("Dot", easelDot) ∈ easelTypes.qualify.entries ∧
      "Pen" ∉ easelTypes.qualify.names ∧ ".Pen" ∉ easelTypes.qualify.names ∧
      easelTypes.qualify.anonymous = easelTypes.anonymous ∧
      easelTypes.qualify.qualify = easelTypes.qualify := by
  obtain ⟨hanonymous, -, hsettled, hagain⟩ := qualify_settles easelTypes
  have hnames : easelTypes.qualify.names = ["Dot", "Geo.Line"] := by
    rw [Keyed.names, entries_qualify_easel]
    rfl
  have hdot : ("Dot", easelDot) ∈ easelTypes.qualify.entries := by
    rw [entries_qualify_easel]
    exact List.mem_cons_self
  have hline : ("Geo.Line", easelLine "Geo.Line") ∈ easelTypes.qualify.entries := by
    rw [entries_qualify_easel]
    exact List.mem_cons_of_mem _ List.mem_cons_self
  have hink : "Ink" ∉ easelTypes.qualify.names := by
    rw [hnames]
    decide
  have hpen : "Pen" ∉ easelTypes.qualify.names := by
    rw [hnames]
    decide
  -- neither of the two is a type, so their completions are none
  obtain ⟨-, hgeoInk, -⟩ := (hsettled _ hline ⟨"ink", .vector (.named "Ink")⟩ (by decide)
    "Ink" rfl).resolve_left hink
  obtain ⟨-, -, hdotPen⟩ := (hsettled _ hdot ⟨"pen", .named "Pen"⟩ (by decide)
    "Pen" rfl).resolve_left hpen
  exact ⟨isScanned_easel, hline, hink, hgeoInk, hdot, hpen, hdotPen isScanned_easel,
    hanonymous, hagain⟩

end Schema

end Bindery
