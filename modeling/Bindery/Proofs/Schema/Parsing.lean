import Bindery.Proofs.Schema.Comments

/-!
# From declarations to a schema

The types that declarations define form a schema if they have distinct names: it has exactly one
entry for each of them. Where a name is repeated there is no schema, and what is reported is the
first repetition, with what the name was defined as before and what it is defined as again.

The values of an enumeration are counted in signed words of 64 bits. The counter is stepped behind
every value, also behind the last one, so it gives out exactly when a value is the greatest word
(`countFrom?_eq`). A schema is read as what it declares as long as that does not happen.

* `exists_defineAll`, `defineAll_eq_error` — the two cases, for any definitions;
* `parse_text` — the two cases for the text of declarations.
-/

namespace Bindery.Schema

/-! ### Adding definitions -/

/-- Inserting an entry under a new name adds it. -/
theorem perm_insertEntry {α : Type} {key : String} {entries : List (String × α)} (value : α)
    (h : key ∉ entries.map Prod.fst) :
    (insertEntry key value entries).Perm ((key, value) :: entries) := by
  induction entries with
  | nil => exact .rfl
  | cons e rest ih =>
    obtain ⟨k, v⟩ := e
    obtain ⟨hne, hrest⟩ := List.ne_and_not_mem_of_not_mem_cons h
    rw [insertEntry, if_neg hne]
    split
    · exact .rfl
    · exact ((ih hrest).cons _).trans (.swap _ _ _)

theorem get?_eq_none {types : Schema} {name : String} (h : name ∉ types.names) :
    types.get? name = none := by
  cases hget : types.get? name with
  | none => rfl
  | some d => exact absurd (List.mem_map_of_mem (Keyed.get?_eq_some_iff.mp hget)) h

/-- **Definitions under distinct names are all added.** -/
theorem exists_defineAll (types : Schema) (defs : List (String × TypeDef))
    (h : ((types.entries ++ defs).map Prod.fst).Nodup) :
    ∃ types', types.defineAll defs = .ok types' ∧ types'.entries.Perm (types.entries ++ defs) := by
  induction defs generalizing types with
  | nil => exact ⟨types, rfl, by rw [List.append_nil]⟩
  | cons d defs ih =>
    -- the new name is neither one of the schema nor one of those to come
    have hnew : d.1 ∉ types.names := by
      rw [List.map_append, List.map_cons, List.nodup_append] at h
      exact fun hmem => h.2.2 d.1 hmem d.1 List.mem_cons_self rfl
    have hentries : (types.insert d.1 d.2).entries.Perm (types.entries ++ [d]) :=
      (perm_insertEntry d.2 hnew).trans (List.perm_append_singleton d types.entries).symm
    have hdefine : types.define d.1 d.2 = .ok (types.insert d.1 d.2) := by
      rw [define, get?_eq_none hnew]
    have hall : ((types.insert d.1 d.2).entries ++ defs).Perm (types.entries ++ d :: defs) := by
      have := hentries.append_right defs
      rwa [List.append_assoc, List.singleton_append] at this
    obtain ⟨types', hok, hperm⟩ := ih _ (((hall.map Prod.fst).nodup_iff).mpr h)
    refine ⟨types', ?_, hperm.trans hall⟩
    rw [defineAll, List.foldlM_cons, hdefine]
    exact hok

/-- Definitions under distinct names form a schema. -/
theorem exists_ofDefinitions {defs : List (String × TypeDef)} (h : (defs.map Prod.fst).Nodup) :
    ∃ types : Schema, ofDefinitions defs = .ok types.qualify ∧ types.entries.Perm defs := by
  obtain ⟨types, hok, hperm⟩ := exists_defineAll {} defs h
  exact ⟨types, by rw [ofDefinitions, hok]; rfl, hperm⟩

/-- The entry of one of them. -/
theorem get?_qualify {types : Schema} {defs : List (String × TypeDef)}
    (h : types.entries.Perm defs) {name : String} {t : TypeDef} (ht : (name, t) ∈ defs) :
    types.qualify.get? name = some (qualifyDef types.names t) := by
  rw [Keyed.get?_eq_some_iff]
  exact List.mem_map_of_mem (h.mem_iff.mpr ht)

/-- **The first repetition of a name is reported.** -/
theorem defineAll_eq_error {earlier later : List (String × TypeDef)}
    {first again : String × TypeDef} (h : (earlier.map Prod.fst).Nodup) (hfirst : first ∈ earlier)
    (hname : first.1 = again.1) :
    defineAll {} (earlier ++ again :: later) =
      .error ⟨again.1, first.2.kind, again.2.kind⟩ := by
  obtain ⟨types, hok, hperm⟩ := exists_defineAll {} earlier h
  have hget : types.get? again.1 = some first.2 := by
    rw [Keyed.get?_eq_some_iff, ← hname]
    exact hperm.mem_iff.mpr hfirst
  -- The definition that repeats the name finds the earlier one in its place.
  have hdefine : types.define again.1 again.2 = .error ⟨again.1, first.2.kind, again.2.kind⟩ := by
    rw [define, hget]
  have happend : defineAll {} (earlier ++ again :: later) =
      (defineAll {} earlier).bind fun types => types.defineAll (again :: later) :=
    List.foldlM_append
  have hcons : types.defineAll (again :: later) =
      (types.define again.1 again.2).bind fun types => types.defineAll later := List.foldlM_cons
  rw [happend, hok]
  exact hcons.trans (congrArg (Except.bind · _) hdefine)

namespace Source

/-! ### Counting values -/

/-- **The counter of the values**, a signed word of 64 bits. It is stepped behind every value, and
behind the greatest word it cannot be. -/
def countFrom? : Int64 → List Enumerator → Option (List (String × Int64))
  | _, [] => some []
  | next, e :: rest =>
    let value := (e.number?.map Int64.ofInt).getD next
    if value = Int64.maxValue then none
    else (countFrom? (value + 1) rest).map ((e.name.text, value) :: ·)

/-- A number that is named is a word. -/
theorem toInt_ofInt_number {e : Enumerator} {n : Int} (h : e.number? = some n) :
    (Int64.ofInt n).toInt = n := by
  obtain ⟨⟨before, number, after⟩, -, rfl⟩ := Option.map_eq_some_iff.mp h
  obtain ⟨hmin, hmax⟩ := number.inRange
  rw [Int64.toInt_minValue] at hmin
  rw [Int64.toInt_maxValue] at hmax
  exact Int64.toInt_ofInt_of_le hmin (Int.lt_of_le_sub_one hmax)

/-- The step behind a word that is not the greatest. -/
theorem toInt_add_one {n : Int64} (h : n ≠ Int64.maxValue) : (n + 1).toInt = n.toInt + 1 := by
  have hne : n.toInt ≠ Int64.maxValue.toInt := fun heq => h (Int64.toInt_inj.mp heq)
  have hlow := n.le_toInt
  have hhigh := n.toInt_lt
  rw [Int64.toInt_maxValue] at hne
  rw [Int64.toInt_add, Int64.toInt_one]
  exact Int.bmod_eq_of_le (by omega) (by omega)

/-- **Counting with words gives out exactly when a value is the greatest word**; otherwise the
values are those that are counted without bound. -/
theorem countFrom?_eq (next : Int64) (es : List Enumerator) :
    countFrom? next es =
      if ∀ v ∈ valuesFrom next.toInt es, v.value < Int64.maxValue.toInt then
        some ((valuesFrom next.toInt es).map fun v => (v.name, .ofInt v.value))
      else none := by
  induction es generalizing next with
  | nil => rw [countFrom?, valuesFrom, if_pos (List.forall_mem_nil _), List.map_nil]
  | cons e es ih =>
    rw [countFrom?, valuesFrom]
    set value := (e.number?.map Int64.ofInt).getD next with hvalue
    have hint : e.number?.getD next.toInt = value.toInt := by
      cases hn : e.number? with
      | none => rw [hvalue, hn]; rfl
      | some n => rw [hvalue, hn]; exact (toInt_ofInt_number hn).symm
    rw [hint, if_congr List.forall_mem_cons rfl rfl]
    -- The counter steps beyond every value, the last one included, so none may be the largest.
    by_cases hmax : value = Int64.maxValue
    · have hnot : ¬ value.toInt < Int64.maxValue.toInt := by
        rw [hmax]
        exact lt_irrefl _
      rw [if_pos hmax, if_neg fun hall => hnot hall.1]
    · have hlt : value.toInt < Int64.maxValue.toInt :=
        lt_of_le_of_ne value.toInt_le fun heq => hmax (Int64.toInt_inj.mp heq)
      rw [if_neg hmax, if_congr (and_iff_right hlt) rfl rfl, ih, toInt_add_one hmax]
      split
      · rw [List.map_cons, Int64.ofInt_toInt]
        rfl
      · rfl

/-- **No value is the greatest word**, so that the counter can be stepped behind each of them. -/
def Countable (ds : List Declaration) : Prop :=
  ∀ t ∈ declared "" ds, ∀ v ∈ t.2.values, v.value < Int64.maxValue.toInt

/-- A definition adds its type, under whichever namespace it stands. -/
theorem exists_type_mem_declared {d : Definition} {ds : List Declaration}
    (h : .type d ∈ ds) (scope : String) : ∃ t ∈ declared scope ds, t.2.values =
      valuesFrom 0 ((d.first :: d.more).flatMap BodyLine.enumerators) := by
  induction ds generalizing scope with
  | nil => cases h
  | cons first ds ih =>
    rcases List.mem_cons.mp h with rfl | hrest
    · exact ⟨_, List.mem_cons_self, rfl⟩
    · cases first with
      | blank gap => exact ih hrest scope
      | scope s => exact ih hrest s.name.text
      | type d' =>
        obtain ⟨t, ht, hvalues⟩ := ih hrest scope
        exact ⟨t, List.mem_cons_of_mem _ ht, hvalues⟩

/-- **The text of declarations is read as what they declare**, as long as the counter of the values
does not give out; then it counts all of them in words. If the names are distinct the schema has
exactly the declared types, with their references qualified; otherwise the first definition that
repeats a name is reported together with the one that it repeats. -/
theorem parse_text (ds : List Declaration) (countable : Countable ds) :
    (((declared "" ds).map Prod.fst).Nodup →
      ∃ types : Schema, types.entries.Perm (declared "" ds) ∧ parse (text ds) = .ok types.qualify) ∧
    (∀ earlier again later first, declared "" ds = earlier ++ again :: later →
      (earlier.map Prod.fst).Nodup → first ∈ earlier → first.1 = again.1 →
        parse (text ds) = .error ⟨again.1, first.2.kind, again.2.kind⟩) ∧
    ∀ d, .type d ∈ ds →
      countFrom? 0 ((d.first :: d.more).flatMap BodyLine.enumerators) =
        some ((valuesFrom 0 ((d.first :: d.more).flatMap BodyLine.enumerators)).map fun v =>
          (v.name, .ofInt v.value)) := by
  rw [parse, ofDefinitions, definitionsIn_text]
  refine ⟨fun h => ?_, fun earlier again later first hdeclared hearlier hfirst hname => ?_,
    fun d hd => ?_⟩
  · obtain ⟨types, hok, hperm⟩ := exists_defineAll {} (declared "" ds) h
    exact ⟨types, hperm, by rw [hok]; rfl⟩
  · rw [hdeclared, defineAll_eq_error hearlier hfirst hname]
    rfl
  · obtain ⟨t, ht, hvalues⟩ := exists_type_mem_declared hd ""
    rw [countFrom?_eq, Int64.toInt_zero, if_pos (hvalues ▸ countable t ht)]

/-- An enumeration in a namespace and a table that refers to it. -/
def paint : List Declaration :=
  [.scope { name := { head := 'a', tail := ['.', 'b'] } },
   .type
    { kind := .enum
      name := { head := 'C' }
      base := some ({}, { chars := [' '] }, { head := 'u', tail := ['b', 'y', 't', 'e'] })
      first := .values
        [.value
          { lead := { chars := [' '] }, name := { head := 'R' }, behind := { chars := [' '] }
            number := some ({ chars := [' '] }, { negative := true, digits := ['2'] }, {}) },
         .value
          { lead := { chars := [' '] }, name := { head := 'G' }, behind := { chars := [' '] } }] },
   .type
    { kind := .table
      name := { head := 'P' }
      first := .fields [] {}
      more :=
        [.fields
          [{ lead := { chars := ['\t'] }, name := { head := 'c' }
             type := .plain { head := 'C' }
             extra := { chars := [' ', '=', ' ', '1', ' ', '(', 'k', ')'] } },
           { lead := { chars := [' '] }, name := { head := 't' }, afterColon := { chars := [' '] }
             type := .vector {} { head := 'b', tail := ['y', 't', 'e'] } { chars := [' '] } }] {},
         .fields [] {}] }]

/-- A struct under the name of the enumeration. -/
def repaint : Declaration :=
  .type { kind := .struct, name := { head := 'C' }, first := .fields [] {} }

theorem parse_text_paint :
    text paint = "namespace a.b;\nenum C: ubyte \x7b R = -2, G \x7d\ntable P \x7b\n" ++
      "\tc:C = 1 (k); t: [byte ];\n\x7d" ∧
    Countable paint ∧ Countable (paint ++ [repaint]) ∧
    (∃ types : Schema, types.entries.Perm
      [("a.b.C", ⟨.enum, "a.b", some .uint8, [⟨"R", -2⟩, ⟨"G", -1⟩], []⟩),
       ("a.b.P", ⟨.table, "a.b", none, [],
        [⟨"c", .named "C"⟩, ⟨"t", .vector (.primitive .int8)⟩]⟩)] ∧
      parse (text paint) = .ok types.qualify) ∧
    parse (text (paint ++ [repaint])) = .error ⟨"a.b.C", .enum, .struct⟩ := by
  have hpaint : Countable paint := by unfold Countable; decide +kernel
  have hrepaint : Countable (paint ++ [repaint]) := by unfold Countable; decide +kernel
  refine ⟨by decide +kernel, hpaint, hrepaint, ?_, ?_⟩
  · have hparse := (parse_text paint hpaint).1 (by decide +kernel)
    have hdeclared : declared "" paint =
        [("a.b.C", ⟨.enum, "a.b", some .uint8, [⟨"R", -2⟩, ⟨"G", -1⟩], []⟩),
         ("a.b.P", ⟨.table, "a.b", none, [],
          [⟨"c", .named "C"⟩, ⟨"t", .vector (.primitive .int8)⟩]⟩)] := by
      decide +kernel
    rwa [hdeclared] at hparse
  · exact (parse_text (paint ++ [repaint]) hrepaint).2.1 (declared "" paint)
      ("a.b.C", { kind := .struct, scope := "a.b" }) []
      ("a.b.C", ⟨.enum, "a.b", some .uint8, [⟨"R", -2⟩, ⟨"G", -1⟩], []⟩)
      (by decide +kernel) (by decide +kernel) (by decide +kernel) rfl

end Source

end Bindery.Schema
