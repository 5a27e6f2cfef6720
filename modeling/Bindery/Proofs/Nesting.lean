import Bindery.Proofs.Layout.Words
import Bindery.Schema.Closure

/-!
# Records inside records

A record holds another by value when one of its fields has the name of the other as its
type (`Holds`). Two walks of the library follow this relation, each with a list of the
records it is inside of, so that it ends even if a record holds itself:

* the closure collects what it comes to. Whatever it skips because the walk is inside of
  it is added later on, so nothing is lost (`mem_recordClosure_iff`): the closure has the
  records that can be reached from the roots, and no others;
* the layout refuses what it comes back to, and nothing else
  (`exists_cycle_of_layoutWithin_eq_error`). So a record has a layout exactly when no record that
  holds itself, directly or through others, can be reached from it (`succeeds_layout_iff`), and
  all records have one exactly when there is no such record (`acyclic_iff_layouts`).
  `layout_outcome` says what is reported for the names without a layout.

The sizes that the layouts are made of are words of 32 bits. A record is at least as large as what
it holds (`size_le_of_reaches`), so all sizes are words if that of the outermost record is one.
-/

namespace Bindery

open Relation

/-- The type that a field refers to by name. -/
def Field.reference? (f : Field) : Option String :=
  match f.type with
  | .named n => some n
  | .primitive _ | .string | .vector _ => none

theorem Field.reference?_eq_some_iff {f : Field} {n : String} :
    f.reference? = some n ↔ f.type = .named n := by
  unfold Field.reference?
  cases f.type <;> simp

namespace Schema

variable {types : Schema}

/-- **One record holds another by value.** -/
def Holds (types : Schema) (outer inner : String) : Prop :=
  ∃ d, types.get? outer = some d ∧ d.isRecord = true ∧
    inner ∈ d.fields.filterMap Field.reference? ∧ types.isRecord inner = true

/-- **No record holds itself**, directly or through others. -/
def Acyclic (types : Schema) : Prop := ∀ n, ¬ TransGen types.Holds n n

/-- **A cycle that can be reached**: from one record a path leads to another that holds itself. -/
def ReachesCycle (types : Schema) (name c : String) : Prop :=
  ReflTransGen types.Holds name c ∧ TransGen types.Holds c c

theorem Holds.isRecord_left {outer inner : String} (h : types.Holds outer inner) :
    types.isRecord outer = true := by
  obtain ⟨d, hd, hrec, -⟩ := h
  exact isRecord_iff.mpr ⟨d, hd, hrec⟩

/-! ### The closure -/

/-- What the collected records hold is collected too, or the walk is still inside of it. -/
def Settled (types : Schema) (visiting found : List String) : Prop :=
  ∀ n ∈ found, ∀ m, types.Holds n m → m ∈ found ∨ m ∈ visiting

/-- **What a part of the walk does**, inside the records `visiting`, to the records that
were collected before it. -/
structure Walk (types : Schema) (visiting roots before after : List String) : Prop where
  keeps : before ⊆ after
  /-- Nothing is added that cannot be reached. -/
  reached : ∀ n ∈ after, n ∈ before ∨
    types.isRecord n = true ∧ ∃ root ∈ roots, ReflTransGen types.Holds root n
  /-- Every root is added, unless the walk is inside of it. -/
  complete : ∀ root ∈ roots, types.isRecord root = true → root ∈ after ∨ root ∈ visiting
  settles : types.Settled visiting before → types.Settled visiting after

namespace Walk

variable {visiting : List String}

/-- A walk that adds nothing, as its roots are no records or are known already. -/
theorem stay {roots found : List String}
    (h : ∀ root ∈ roots, types.isRecord root = true → root ∈ found ∨ root ∈ visiting) :
    types.Walk visiting roots found found where
  keeps := List.Subset.refl found
  reached := fun _ hn => .inl hn
  complete := h
  settles := id

/-- One walk after the other. -/
theorem trans {roots roots' before between after : List String}
    (h : types.Walk visiting roots before between)
    (h' : types.Walk visiting roots' between after) :
    types.Walk visiting (roots ++ roots') before after where
  keeps := List.Subset.trans h.keeps h'.keeps
  reached := by
    intro n hn
    -- What the later walk reached was there before it, or a path of its own leads there.
    rcases h'.reached n hn with hn | ⟨hrec, root, hroot, hpath⟩
    · rcases h.reached n hn with hn | ⟨hrec, root, hroot, hpath⟩
      · exact .inl hn
      · exact .inr ⟨hrec, root, List.mem_append_left _ hroot, hpath⟩
    · exact .inr ⟨hrec, root, List.mem_append_right _ hroot, hpath⟩
  complete := by
    intro root hroot hrec
    rcases List.mem_append.mp hroot with hroot | hroot
    · exact (h.complete root hroot hrec).imp_left (h'.keeps ·)
    · exact h'.complete root hroot hrec
  settles := h'.settles ∘ h.settles

/-- The walk through the fields of a record, and then the record itself. -/
theorem enter {name : String} {d : TypeDef} (hd : types.get? name = some d)
    (hrec : d.isRecord = true) {before after : List String}
    (h : types.Walk (name :: visiting) (d.fields.filterMap Field.reference?) before after) :
    types.Walk visiting [name] before (after ++ [name]) where
  keeps := List.Subset.trans h.keeps (List.subset_append_left after [name])
  reached := by
    intro n hn
    rcases List.mem_append.mp hn with hn | hn
    · rcases h.reached n hn with hn | ⟨hn, inner, hinner, hpath⟩
      · exact .inl hn
      · -- a path from what the record holds is a path from the record
        refine .inr ⟨hn, name, List.mem_singleton_self name, ?_⟩
        have hinnerRec : types.isRecord inner = true := by
          rcases hpath.cases_head with rfl | ⟨m, hstep, -⟩
          · exact hn
          · exact hstep.isRecord_left
        exact hpath.head ⟨d, hd, hrec, hinner, hinnerRec⟩
    · rw [List.mem_singleton.mp hn]
      exact .inr ⟨isRecord_iff.mpr ⟨d, hd, hrec⟩, name, List.mem_singleton_self name, .refl⟩
  complete := by
    intro root hroot _
    rw [List.mem_singleton.mp hroot]
    exact .inl (List.mem_append_right _ (List.mem_singleton_self name))
  settles := by
    intro hsettled
    -- before the fields the record counts as one that the walk is inside of
    have hinside : types.Settled (name :: visiting) before := by
      intro n hn m hm
      exact (hsettled n hn m hm).imp_right (List.mem_cons_of_mem name)
    have hmove : ∀ m, m ∈ after ∨ m ∈ name :: visiting → m ∈ after ++ [name] ∨ m ∈ visiting := by
      intro m hm
      rcases hm with hm | hm
      · exact .inl (List.mem_append_left _ hm)
      · rcases List.mem_cons.mp hm with rfl | hm
        · exact .inl (List.mem_append_right _ (List.mem_singleton_self m))
        · exact .inr hm
    intro n hn m hm
    rcases List.mem_append.mp hn with hn | hn
    · exact hmove m (h.settles hinside n hn m hm)
    · rw [List.mem_singleton.mp hn] at hm
      obtain ⟨d', hd', -, hmem, hmrec⟩ := hm
      obtain rfl : d = d' := Option.some.inj (hd.symm.trans hd')
      exact hmove m (h.complete m hmem hmrec)

end Walk

/-- The walk through fields, when the walk to one record is understood. -/
theorem walk_closeFields {visiting : List String}
    (hrecord : ∀ found name, types.Walk visiting [name] found
      (closeRecord types visiting found name)) (fields : List Field) (found : List String) :
    types.Walk visiting (fields.filterMap Field.reference?) found
      (closeFields types visiting found fields) := by
  induction fields generalizing found with
  | nil =>
    rw [closeFields]
    exact .stay (by simp)
  | cons f rest ih =>
    rw [closeFields]
    -- Only a name refers to another record.
    cases hf : f.type with
    | named n =>
      rw [List.filterMap_cons_some (Field.reference?_eq_some_iff.mpr hf)]
      exact (hrecord found n).trans (ih _)
    | primitive _ | string | vector _ =>
      rw [List.filterMap_cons_none (by simp [Field.reference?, hf])]
      exact ih found

/-- **The walk to one record.** The number of names that are left shrinks with every step
inward. -/
theorem walk_closeRecord (visiting found : List String) (name : String) :
    types.Walk visiting [name] found (closeRecord types visiting found name) := by
  induction hn : types.unvisited visiting using Nat.strong_induction_on
    generalizing visiting found name with
  | _ n ih =>
    subst hn
    rw [closeRecord]
    -- the walk goes inward only from a new record that it is not inside of
    by_cases hfound : found.contains name = true
    · rw [if_pos hfound]
      refine .stay fun root hroot _ => .inl ?_
      rw [List.mem_singleton.mp hroot]
      exact List.contains_iff_mem.mp hfound
    · rw [if_neg hfound]
      by_cases hvisiting : visiting.contains name = true
      · rw [dif_pos hvisiting]
        refine .stay fun root hroot _ => .inr ?_
        rw [List.mem_singleton.mp hroot]
        exact List.contains_iff_mem.mp hvisiting
      · rw [dif_neg hvisiting]
        split
        · next hnone =>
          refine .stay fun root hroot hrec => ?_
          rw [List.mem_singleton.mp hroot] at hrec
          simp [isRecord, hnone] at hrec
        · next d hd =>
          cases hrec : d.isRecord with
          | false =>
            rw [if_neg Bool.false_ne_true]
            refine .stay fun root hroot hroot' => ?_
            rw [List.mem_singleton.mp hroot] at hroot'
            simp [isRecord, hd, hrec] at hroot'
          | true =>
            rw [if_pos rfl]
            have hlt : types.unvisited (name :: visiting) < types.unvisited visiting :=
              unvisited_cons_lt hd (by simpa using hvisiting)
            exact .enter hd hrec
              (walk_closeFields (fun found m => ih _ hlt (name :: visiting) found m rfl) _ _)

/-- The walk from several roots. -/
theorem walk_foldl (roots found : List String) :
    types.Walk [] roots found (roots.foldl (closeRecord types []) found) := by
  induction roots generalizing found with
  | nil => exact .stay (by simp)
  | cons root rest ih => exact (walk_closeRecord [] found root).trans (ih _)

/-- **The closure has the records that can be reached, and no others.** -/
theorem mem_recordClosure_iff {roots : List String} {n : String} :
    n ∈ types.recordClosure roots ↔
      types.isRecord n = true ∧ ∃ root ∈ roots, ReflTransGen types.Holds root n := by
  have hwalk : types.Walk [] roots [] (types.recordClosure roots) := walk_foldl roots []
  constructor
  · intro hn
    exact (hwalk.reached n hn).resolve_left List.not_mem_nil
  · rintro ⟨hrec, root, hroot, hpath⟩
    -- at the end the walk is inside of nothing, so the closure is closed
    have hsettled : types.Settled [] (types.recordClosure roots) := hwalk.settles nofun
    induction hpath with
    | refl => exact (hwalk.complete root hroot hrec).resolve_right List.not_mem_nil
    | tail _ hstep ih =>
      exact (hsettled _ (ih hstep.isRecord_left) _ hstep).resolve_right List.not_mem_nil

end Schema

/-! ### Layouts -/

namespace Abi

open Schema

variable {types : Schema}

/-- What a record holds has a layout inside of it. -/
theorem exists_layoutWithin_of_holds {visiting : List String} {outer inner : String}
    {l : Layout} (h : layoutWithin types visiting outer = .ok l)
    (hholds : types.Holds outer inner) :
    ∃ l', layoutWithin types (outer :: visiting) inner = .ok l' := by
  obtain ⟨d, chunks, hd, -, -, hchunks, -⟩ := layoutWithin_eq_ok_iff.mp h
  obtain ⟨d', hd', -, hmem, hrec⟩ := hholds
  obtain rfl : d = d' := Option.some.inj (hd.symm.trans hd')
  obtain ⟨f, hf, href⟩ := List.mem_filterMap.mp hmem
  obtain ⟨parts, -, htakes⟩ := exists_mem_of_forall₂ hchunks hf
  obtain ⟨p, hp, hkind⟩ := htakes.exists_record hrec (Field.reference?_eq_some_iff.mp href)
  obtain ⟨l', hl', -, -⟩ := htakes.layout_of_record hp hkind
  exact ⟨l', hl'⟩

/-- A path from a record with a layout leads to a layout inside of that record. -/
theorem exists_layoutWithin_of_transGen {outer inner : String} {l : Layout}
    (h : layout types outer = .ok l) (hpath : TransGen types.Holds outer inner) :
    ∃ visiting, outer ∈ visiting ∧ ∃ l', layoutWithin types visiting inner = .ok l' := by
  induction hpath with
  | single hstep =>
    exact ⟨[outer], List.mem_singleton_self outer, exists_layoutWithin_of_holds h hstep⟩
  | tail _ hstep ih =>
    obtain ⟨visiting, hmem, l', hl'⟩ := ih
    exact ⟨_, List.mem_cons_of_mem _ hmem, exists_layoutWithin_of_holds hl' hstep⟩

/-- Parts that are known, in front of parts that are computed: only the latter can fail. -/
theorem append_eq_error_iff {here : List Part} {rest : Except LayoutError (List Part)}
    {e : LayoutError} :
    (do let start ← pure here; let others ← rest; return start ++ others) = Except.error e ↔
      rest = .error e := by
  cases rest <;> simp [bind, Except.bind, pure, Except.pure]

/-- **Only a record inside can refuse to have parts.** -/
theorem exists_of_partsWithin_eq_error {visiting : List String} {fields : List Field}
    {e : LayoutError} (h : partsWithin types visiting fields = .error e) :
    ∃ n ∈ fields.filterMap Field.reference?, types.isRecord n = true ∧
      layoutWithin types visiting n = .error e := by
  induction fields with
  | nil =>
    rw [partsWithin] at h
    cases h
  | cons f rest ih =>
    have hrest : partsWithin types visiting rest = .error e →
        ∃ n ∈ (f :: rest).filterMap Field.reference?, types.isRecord n = true ∧
          layoutWithin types visiting n = .error e := by
      intro hrest
      obtain ⟨n, hn, hfails⟩ := ih hrest
      rw [← List.singleton_append, List.filterMap_append]
      exact ⟨n, List.mem_append_right _ hn, hfails⟩
    rw [partsWithin] at h
    split at h
    · exact hrest (append_eq_error_iff.mp h)
    · exact hrest (append_eq_error_iff.mp h)
    · exact hrest (append_eq_error_iff.mp h)
    · next n hn =>
      split at h
      · exact hrest (append_eq_error_iff.mp h)
      · split at h
        · next hrecord =>
          -- the record inside has no layout, or it has one and the others fail
          rcases bind_eq_error_iff.mp h with hhere | ⟨here, -, hothers⟩
          · refine ⟨n, ?_, hrecord, map_eq_error_iff.mp hhere⟩
            rw [List.filterMap_cons_some (Field.reference?_eq_some_iff.mpr hn)]
            exact List.mem_cons_self
          · rcases bind_eq_error_iff.mp hothers with hothers | ⟨others, -, hpure⟩
            · exact hrest hothers
            · cases hpure
        · exact hrest (append_eq_error_iff.mp h)

/-- **The walk refuses only what it comes back to**: a record of the records around it, which
therefore lies on a cycle. -/
theorem exists_cycle_of_layoutWithin_eq_error {visiting : List String} {name : String}
    {e : LayoutError} (h : layoutWithin types visiting name = .error e)
    (hrec : types.isRecord name = true)
    (hvisiting : ∀ outer ∈ visiting, TransGen types.Holds outer name) :
    ∃ c, e = .cycle c ∧ types.ReachesCycle name c := by
  induction hn : types.unvisited visiting using Nat.strong_induction_on
    generalizing visiting name with
  | _ n ih =>
    subst hn
    obtain ⟨d, hd, hkind⟩ := isRecord_iff.mp hrec
    rw [layoutWithin] at h
    split at h
    · next hnone => rw [hnone] at hd; cases hd
    · next d' hd' =>
      obtain rfl : d' = d := Option.some.inj (hd'.symm.trans hd)
      rw [if_neg (by simp [hkind])] at h
      split at h
      · next hmem =>
        -- a record that the walk is inside of leads back to itself
        rw [List.contains_iff_mem] at hmem
        exact ⟨name, (Except.error.inj h).symm, .refl, hvisiting name hmem⟩
      · next hnew =>
        have hlt : types.unvisited (name :: visiting) < types.unvisited visiting :=
          unvisited_cons_lt hd (by simpa using hnew)
        obtain ⟨m, hm, hmrec, hfails⟩ := exists_of_partsWithin_eq_error (map_eq_error_iff.mp h)
        have hstep : types.Holds name m := ⟨d', hd, hkind, hm, hmrec⟩
        have hpaths : ∀ outer ∈ name :: visiting, TransGen types.Holds outer m := by
          intro outer houter
          rcases List.mem_cons.mp houter with rfl | houter
          · exact .single hstep
          · exact (hvisiting outer houter).tail hstep
        obtain ⟨c, rfl, hpath, hcycle⟩ := ih _ hlt hfails hmrec hpaths rfl
        exact ⟨c, rfl, hpath.head hstep, hcycle⟩

/-- A record from which a cycle can be reached has no layout. -/
theorem layout_ne_ok_of_reachesCycle {name c : String} (h : types.ReachesCycle name c)
    (l : Layout) : layout types name ≠ .ok l := by
  intro hl
  obtain ⟨hpath, hcycle⟩ := h
  -- the record on the cycle has a layout inside of some records
  have hinside : ∃ visiting l', layoutWithin types visiting c = .ok l' := by
    rcases reflTransGen_iff_eq_or_transGen.mp hpath with rfl | hpath
    · exact ⟨[], l, hl⟩
    · obtain ⟨visiting, -, l', hl'⟩ := exists_layoutWithin_of_transGen hl hpath
      exact ⟨visiting, l', hl'⟩
  obtain ⟨visiting, l', hl'⟩ := hinside
  -- and so it has one inside of itself
  obtain ⟨inner, hmem, l'', hl''⟩ :=
    exists_layoutWithin_of_transGen (layout_of_layoutWithin hl') hcycle
  obtain ⟨-, -, -, -, hnew, -⟩ := layoutWithin_eq_ok_iff.mp hl''
  exact hnew hmem

/-- A record has a layout, or a cycle that can be reached is reported. -/
theorem layout_of_isRecord {name : String} (hrec : types.isRecord name = true) :
    (∃ l, layout types name = .ok l) ∨
      ∃ c, layout types name = .error (.cycle c) ∧ types.ReachesCycle name c := by
  cases hl : layout types name with
  | ok l => exact .inl ⟨l, rfl⟩
  | error e =>
    obtain ⟨c, rfl, hc⟩ := exists_cycle_of_layoutWithin_eq_error hl hrec nofun
    exact .inr ⟨c, rfl, hc⟩

/-- **A record has a layout exactly when no cycle can be reached from it.** -/
theorem succeeds_layout_iff {name : String} (hrec : types.isRecord name = true) :
    Succeeds (layout types name) ↔ ¬ ∃ c, types.ReachesCycle name c := by
  constructor
  · rintro ⟨l, hl⟩ ⟨c, hc⟩
    exact layout_ne_ok_of_reachesCycle hc l hl
  · intro h
    refine (layout_of_isRecord hrec).resolve_right ?_
    rintro ⟨c, -, hc⟩
    exact h ⟨c, hc⟩

/-- **All records have a layout exactly when none of them holds itself.** -/
theorem acyclic_iff_layouts :
    types.Acyclic ↔ ∀ n, types.isRecord n = true → Succeeds (layout types n) := by
  constructor
  · intro acyclic n hn
    exact (succeeds_layout_iff hn).mpr fun ⟨c, hc⟩ => acyclic c hc.2
  · intro h n hcycle
    have hrec : types.isRecord n = true := by
      obtain ⟨m, hstep, -⟩ := TransGen.head'_iff.mp hcycle
      exact hstep.isRecord_left
    exact (succeeds_layout_iff hrec).mp (h n hrec) ⟨n, .refl, hcycle⟩

/-- What is not a record is refused for what it is. -/
theorem layout_of_not_isRecord {name : String} (hrec : types.isRecord name = false) :
    types.get? name = none ∧ layout types name = .error (.missingType name) ∨
      ∃ d, types.get? name = some d ∧ (d.kind = .enum ∨ d.kind = .union) ∧
        layout types name = .error (.notARecord name d.kind) := by
  rw [layout, layoutWithin]
  unfold isRecord at hrec
  split
  · next hd => exact .inl ⟨hd, rfl⟩
  · next d hd =>
    have hd' : d.isRecord = false := by simpa [hd] using hrec
    have hkind : d.kind = .enum ∨ d.kind = .union := by
      cases hk : d.kind <;> simp [TypeDef.isRecord, hk] at hd' ⊢
    exact .inr ⟨d, hd, hkind, if_pos (by simp [hd'])⟩

/-- **Every size is a word**: the records that can be reached take less room than there are
addresses, as far as they have a layout. -/
def FitsWords (types : Schema) (name : String) : Prop :=
  ∀ n l, ReflTransGen types.Holds name n → layout types n = .ok l → l.size < UInt32.size

/-- What a record holds is one of its slots. -/
theorem exists_slot_of_holds {outer inner : String} {l : Layout}
    (h : layout types outer = .ok l) (hholds : types.Holds outer inner) :
    ∃ s ∈ l.slots, s.kind = .record inner := by
  obtain ⟨d, chunks, hd, -, hslots, hfields⟩ := exists_fieldSlots h
  obtain ⟨d', hd', -, hmem, hrec⟩ := hholds
  obtain rfl : d = d' := Option.some.inj (hd.symm.trans hd')
  obtain ⟨f, hf, href⟩ := List.mem_filterMap.mp hmem
  obtain ⟨chunk, hchunk, htakes⟩ := exists_mem_of_forall₂ hfields hf
  obtain ⟨p, hp, hkind⟩ := htakes.exists_record hrec (Field.reference?_eq_some_iff.mp href)
  obtain ⟨s, hs, rfl⟩ := List.mem_map.mp hp
  exact ⟨s, hslots ▸ List.mem_flatten_of_mem hchunk hs, hkind⟩

/-- **A record is at least as large as what it holds**, directly or through others. -/
theorem size_le_of_reaches {outer inner : String} {l l' : Layout}
    (h : layout types outer = .ok l) (hpath : ReflTransGen types.Holds outer inner)
    (h' : layout types inner = .ok l') : l'.size ≤ l.size := by
  induction hpath generalizing l' with
  | refl =>
    obtain rfl := Except.ok.inj (h.symm.trans h')
    exact Nat.le_refl _
  | @tail between inner hbetween hstep ih =>
    -- the record in between has a layout as well, and the inner one is a slot of it
    obtain ⟨lb, hlb⟩ : ∃ lb, layout types between = .ok lb := by
      rcases reflTransGen_iff_eq_or_transGen.mp hbetween with rfl | hbetween
      · exact ⟨l, h⟩
      · obtain ⟨visiting, -, lb, hlb⟩ := exists_layoutWithin_of_transGen h hbetween
        exact ⟨lb, layout_of_layoutWithin hlb⟩
    obtain ⟨s, hs, hkind⟩ := exists_slot_of_holds hlb hstep
    obtain ⟨li, hli, hsize, -⟩ := layout_of_record_slot hlb hs hkind
    obtain rfl := Except.ok.inj (hli.symm.trans h')
    have hstop : s.offset + s.size ≤ lb.size := stop_le_size hlb hs
    have houter := ih hlb
    omega

/-- All sizes are words if the size of the outermost record is one. -/
theorem fitsWords_of_layout {name : String} {l : Layout} (h : layout types name = .ok l)
    (hsize : l.size < UInt32.size) : FitsWords types name :=
  fun _ _ hpath h' => Nat.lt_of_le_of_lt (size_le_of_reaches h hpath h') hsize

/-- **What becomes of a layout.** On every schema, whatever refers to whatever in it, the walk
ends, as it never enters a record that it is inside of; and it ends in one of four ways. A name that
is not defined and one of an enumeration or a union are refused as such. A record from which a cycle
can be reached is refused, and what is reported lies on such a cycle. Every other record has a
layout. Offsets and sizes are words, and as long as no record needs more than there are addresses,
every layout on the way is computed in words. -/
theorem layout_outcome (types : Schema) (name : String) (fits : FitsWords types name) :
    (∀ m, layout types name = .error (.missingType m) ↔ m = name ∧ types.get? name = none) ∧
    (∀ m kind, layout types name = .error (.notARecord m kind) ↔
      m = name ∧ (kind = .enum ∨ kind = .union) ∧
        ∃ d, types.get? name = some d ∧ d.kind = kind) ∧
    (∀ c, layout types name = .error (.cycle c) → types.ReachesCycle name c) ∧
    ((∃ c, layout types name = .error (.cycle c)) ↔
      types.isRecord name = true ∧ ∃ c, types.ReachesCycle name c) ∧
    (Succeeds (layout types name) ↔
      types.isRecord name = true ∧ ¬ ∃ c, types.ReachesCycle name c) ∧
    ∀ n l, ReflTransGen types.Holds name n → layout types n = .ok l → InWords types n l := by
  have hwords : ∀ n l, ReflTransGen types.Holds name n → layout types n = .ok l →
      InWords types n l := fun n l hpath hl => inWords_of_layout hl (fits n l hpath hl)
  cases hrec : types.isRecord name with
  | true =>
    obtain ⟨d, hd, hkind⟩ := isRecord_iff.mp hrec
    -- a record is no enumeration and no union, so two of the four ways are out
    have hother : ∀ kind, kind = .enum ∨ kind = .union → d.kind ≠ kind := by
      rintro kind hother rfl
      rcases hother with hk | hk <;> simp [TypeDef.isRecord, hk] at hkind
    rcases layout_of_isRecord hrec with ⟨l, hl⟩ | ⟨c, hl, hc⟩
    · have hfree : ∀ c, ¬ types.ReachesCycle name c :=
        not_exists.mp ((succeeds_layout_iff hrec).mp ⟨l, hl⟩)
      rw [hl]
      simpa [hd, hfree] using ⟨fun m kind _ => hother kind, hwords⟩
    · rw [hl]
      simpa [hd, hc] using ⟨fun m kind _ => hother kind, ⟨c, hc⟩, hwords⟩
  | false =>
    rcases layout_of_not_isRecord hrec with ⟨hd, hl⟩ | ⟨d, hd, hkind, hl⟩
    · rw [hl, hd]
      simpa [eq_comm] using hwords
    · rw [hl, hd]
      simpa [@eq_comm _ name, @eq_comm _ d.kind] using ⟨hkind.imp Eq.symm Eq.symm, hwords⟩

/-- A track holds a leg, a leg a point; a loop holds itself, and a detour holds both. -/
def routeSchema : Schema :=
  ((((Keyed.empty.insert "Point" { kind := .struct, fields := [⟨"x", .primitive .int64⟩] }).insert
    "Leg" { kind := .struct, fields := [⟨"from", .named "Point"⟩, ⟨"to", .named "Point"⟩] }).insert
    "Track" { kind := .table, fields := [⟨"name", .string⟩, ⟨"leg", .named "Leg"⟩] }).insert
    "Loop" { kind := .table, fields := [⟨"next", .named "Loop"⟩] }).insert
    "Detour" { kind := .table, fields := [⟨"track", .named "Track"⟩, ⟨"loop", .named "Loop"⟩] }

theorem layout_outcome_routeSchema :
    FitsWords routeSchema "Track" ∧ FitsWords routeSchema "Detour" ∧
      Succeeds (layout routeSchema "Track") ∧
      (∃ l, layout routeSchema "Point" = .ok l ∧ InWords routeSchema "Point" l) ∧
      ∃ c, layout routeSchema "Detour" = .error (.cycle c) ∧
        routeSchema.ReachesCycle "Detour" c := by
  obtain ⟨lt, hlt, htrack⟩ : ∃ l, layout routeSchema "Track" = .ok l ∧ l.size = 24 :=
    ⟨_, by cbv, rfl⟩
  obtain ⟨ll, hll, hleg⟩ : ∃ l, layout routeSchema "Leg" = .ok l ∧ l.size = 16 := ⟨_, by cbv, rfl⟩
  obtain ⟨lp, hlp, hpoint⟩ : ∃ l, layout routeSchema "Point" = .ok l ∧ l.size = 8 :=
    ⟨_, by cbv, rfl⟩
  have hloop : layout routeSchema "Loop" = .error (.cycle "Loop") := by cbv
  have hdetour : layout routeSchema "Detour" = .error (.cycle "Loop") := by cbv
  -- the records that have a layout at all are small
  have hfits : ∀ name, FitsWords routeSchema name := by
    intro name n l _ hl
    obtain ⟨d, -, hd, -⟩ := exists_parts_of_layout hl
    have hnames : routeSchema.names = ["Detour", "Leg", "Loop", "Point", "Track"] := rfl
    have hn : n ∈ routeSchema.names := List.mem_map_of_mem (Keyed.get?_eq_some_iff.mp hd)
    simp only [hnames, List.mem_cons, List.not_mem_nil, or_false] at hn
    rcases hn with rfl | rfl | rfl | rfl | rfl
    · cases hdetour.symm.trans hl
    · obtain rfl := Except.ok.inj (hll.symm.trans hl)
      rw [hleg]
      decide
    · cases hloop.symm.trans hl
    · obtain rfl := Except.ok.inj (hlp.symm.trans hl)
      rw [hpoint]
      decide
    · obtain rfl := Except.ok.inj (hlt.symm.trans hl)
      rw [htrack]
      decide
  have hheld : routeSchema.Holds "Track" "Leg" := ⟨_, rfl, rfl, by decide, by decide⟩
  have hinner : routeSchema.Holds "Leg" "Point" := ⟨_, rfl, rfl, by decide, by decide⟩
  obtain ⟨-, -, -, -, -, hwords⟩ := layout_outcome routeSchema "Track" (hfits "Track")
  obtain ⟨-, -, hcycle, -, -, -⟩ := layout_outcome routeSchema "Detour" (hfits "Detour")
  exact ⟨hfits "Track", hfits "Detour", ⟨lt, hlt⟩,
    ⟨lp, hlp, hwords "Point" lp ((ReflTransGen.single hheld).tail hinner) hlp⟩,
    "Loop", hdetour, hcycle "Loop" hdetour⟩

end Abi

end Bindery
