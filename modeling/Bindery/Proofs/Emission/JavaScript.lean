import Bindery.Proofs.Emission.Wasm

/-!
# How JavaScript gives up

The JavaScript binding needs the layout of every record of the schema and, for every vector that it
reads, the count that lies next to it. A record from which a cycle can be reached has no layout. A
count is looked up by its name, and where a field in front of it has that name, what is found is not
a count (`Schema.Miscounts`).

Nothing else goes wrong in a valid description: every type that crosses has a form, every name in it
is an enumeration or a record, and texts and buffers are not returned. So the faults of a missing
type and of an unsupported one, which the emitter has for other cases, never occur.

* `JavaScript.emit_fault_iff` — the emitter gives up exactly in these two cases, and says so in one
  of two wordings.
-/

namespace Bindery

open Validate

/-- **The count of a field is not what is found under its name.** The field is a vector of a record,
with elements that can be read, and the first slot of the record with the name of the count is no
count. -/
def Schema.Miscounts (types : Schema) (name : String) (f : Field) : Prop :=
  ∃ d l element slot, types.get? name = some d ∧ d.isRecord = true ∧ f ∈ d.fields ∧
    f.type = .vector element ∧ types.Readable element ∧ Abi.layout types name = .ok l ∧
    l.slot? (Abi.countName f.name) = some slot ∧ slot.kind ≠ .count

namespace JavaScript

variable {types : Schema}

/-! ### The two cases -/

/-- **Some record holds itself** exactly when a cycle can be reached from some record. -/
theorem not_acyclic_iff :
    ¬ types.Acyclic ↔ ∃ n, types.isRecord n = true ∧ ∃ c, types.ReachesCycle n c := by
  rw [Abi.acyclic_iff_layouts]
  constructor
  · intro h
    by_contra hnone
    refine h fun n hn => (Abi.succeeds_layout_iff hn).mpr fun hc => hnone ⟨n, hn, hc⟩
  · rintro ⟨n, hn, hc⟩ h
    exact (Abi.succeeds_layout_iff hn).mp (h n hn) hc

/-- A count is missed where a field that is called like it comes before. -/
theorem miscounts_iff {n : String} {d : TypeDef} {l : Abi.Layout} (hd : types.get? n = some d)
    (hl : Abi.layout types n = .ok l) {f : Field} (hf : f ∈ d.fields) :
    types.Miscounts n f ↔ ¬ types.CountFound d.fields f := by
  obtain ⟨d', chunks, hd', hrec, hslots, hfields⟩ := Abi.exists_fieldSlots hl
  obtain rfl : d = d' := Option.some.inj (hd.symm.trans hd')
  constructor
  · rintro ⟨d', l', element, slot, -, -, -, htype, hreadable, hl', hslot, hkind⟩ hfound
    obtain rfl : l = l' := Except.ok.inj (hl.symm.trans hl')
    obtain ⟨g, s, hg, hs, hiff⟩ :=
      Abi.exists_slot_countName hslots hfields hf (by rw [htype]; rfl)
    obtain rfl : slot = s := Option.some.inj (hslot.symm.trans hs)
    exact hkind (hiff.mpr (hfound element htype hreadable g hg))
  -- The slot that is found under the name of the count is another field's.
  · intro hmissed
    unfold Schema.CountFound at hmissed
    push Not at hmissed
    obtain ⟨element, htype, hreadable, g, hg, hname⟩ := hmissed
    obtain ⟨g', s, hg', hs, hiff⟩ :=
      Abi.exists_slot_countName hslots hfields hf (by rw [htype]; rfl)
    obtain rfl : g = g' := Option.some.inj (hg.symm.trans hg')
    exact ⟨d, l, element, s, hd, hrec, hf, htype, hreadable, hl, hs,
      fun hcount => hiff.mp hcount hname⟩

/-- **Some count is not found** exactly when a vector of some record misses its count. -/
theorem not_countsApart_iff (acyclic : types.Acyclic) :
    ¬ types.CountsApart ↔ ∃ n f, types.Miscounts n f := by
  -- Without cycles every record has a layout, in which the count is looked for.
  have hlayout : ∀ {n d}, types.get? n = some d → d.isRecord = true →
      Succeeds (Abi.layout types n) := fun {n d} hd hrec =>
    Abi.acyclic_iff_layouts.mp acyclic n (Schema.isRecord_iff.mpr ⟨d, hd, hrec⟩)
  constructor
  · intro h
    unfold Schema.CountsApart at h
    push Not at h
    obtain ⟨n, d, hd, hrec, f, hf, hmissed⟩ := h
    obtain ⟨l, hl⟩ := hlayout hd hrec
    exact ⟨n, f, (miscounts_iff hd hl hf).mpr hmissed⟩
  · rintro ⟨n, f, hmiss⟩ h
    obtain ⟨d, l, -, -, hd, hrec, hf, -, -, hl, -⟩ := id hmiss
    exact (miscounts_iff hd hl hf).mp hmiss (h n d hd hrec f hf)

/-! ### The two faults -/

/-- The fault of a record from which this cycle can be reached. -/
def cycleFault (c : String) : Fault := layoutFault (.cycle c)

/-- The fault of a vector without its count. -/
def countFault (record : String) (f : Field) : Fault :=
  .internal (record ++ "." ++ f.name ++ " has no count slot")

/-- **One field.** Where no record holds itself, the only fault is that of a count. -/
theorem fault_of_access (acyclic : types.Acyclic) {n : String} {d : TypeDef} {l : Abi.Layout}
    (hd : types.get? n = some d) (hl : Abi.layout types n = .ok l) {f : Field} (hf : f ∈ d.fields)
    {fault : Fault} (h : Access.ofField types l f = .error fault) :
    types.Miscounts n f ∧ fault = countFault n f := by
  obtain ⟨d', chunks, hd', hrec, hslots, hfields⟩ := Abi.exists_fieldSlots hl
  obtain rfl : d = d' := Option.some.inj (hd.symm.trans hd')
  have hmissed : types.Miscounts n f := by
    rw [miscounts_iff hd hl hf, ← succeeds_access_iff acyclic hslots hfields hf, h]
    exact not_succeeds_error
  -- The access fails at the kind of the slot, and the fault names the record and the field.
  refine ⟨hmissed, ?_⟩
  obtain ⟨slot, hslot⟩ := Wasm.exists_slot hslots hfields hf
  obtain ⟨-, l', element, s, -, -, -, htype, -, hl', hs, hkind⟩ := hmissed
  obtain rfl : l = l' := Except.ok.inj (hl.symm.trans hl')
  simp only [Access.ofField, hslot, htype, hs, Option.filter_some, hkind, decide_false,
    Bool.false_eq_true, if_false] at h
  split at h
  · cases h
  · obtain rfl := Except.error.inj h
    rw [countFault, Abi.name_of_layout hl]

/-- One record. -/
theorem fault_of_codec (acyclic : types.Acyclic) {n : String} {d : TypeDef} {l : Abi.Layout}
    (hd : types.get? n = some d) (hl : Abi.layout types n = .ok l) {fault : Fault}
    (h : Codec.ofLayout types d l = .error fault) :
    ∃ f, types.Miscounts n f ∧ fault = countFault n f := by
  rcases bind_eq_error_iff.mp h with hfields | ⟨accesses, -, hpure⟩
  · obtain ⟨f, hf, hfault⟩ := exists_of_mapM_eq_error hfields
    exact ⟨f, fault_of_access acyclic hd hl hf hfault⟩
  · cases hpure

/-- **The faults of the codecs.** A record has no layout, or, if all have one, a vector misses its
count. -/
theorem fault_of_codecs {fault : Fault} (h : Codec.all types = .error fault) :
    (∃ n c, types.isRecord n = true ∧ types.ReachesCycle n c ∧ fault = cycleFault c) ∨
    (∃ n f, types.Miscounts n f ∧ fault = countFault n f) := by
  rcases bind_eq_error_iff.mp h with hlayouts | ⟨layouts, hlayouts, hcodecs⟩
  · obtain ⟨⟨n, d⟩, hmem, hfault⟩ := exists_of_mapM_eq_error hlayouts
    obtain ⟨hd, hrec⟩ := Schema.mem_records_iff.mp hmem
    have hrecord : types.isRecord n = true := Schema.isRecord_iff.mpr ⟨d, hd, hrec⟩
    rcases Abi.layout_of_isRecord hrecord with ⟨l, hl⟩ | ⟨c, hl, hc⟩
    · simp only [hl] at hfault
      cases hfault
    · simp only [hl] at hfault
      exact .inl ⟨n, c, hrecord, hc, (Except.error.inj hfault).symm⟩
  · have acyclic : types.Acyclic :=
      succeeds_layouts_iff (f := fun e l => (e.2, l)).mp ⟨layouts, hlayouts⟩
    obtain ⟨⟨d, l⟩, hmem, hfault⟩ := exists_of_mapM_eq_error hcodecs
    -- the layout is that of a record with this definition
    obtain ⟨⟨n, d'⟩, hrecord, hpair⟩ :=
      exists_mem_of_forall₂ (mapM_eq_ok_iff.mp hlayouts).flip hmem
    obtain ⟨hd, -⟩ := Schema.mem_records_iff.mp hrecord
    obtain ⟨l', hl, heq⟩ := bind_eq_ok_iff.mp hpair
    obtain ⟨rfl, rfl⟩ := Prod.mk.inj (pure_eq_ok_iff.mp heq)
    obtain ⟨f, hf⟩ := fault_of_codec acyclic hd (mapError_eq_ok_iff.mp hl) hfault
    exact .inr ⟨n, f, hf⟩

/-- In a valid description only the codecs fail. -/
theorem codecs_eq_error {ctx : Context} (valid : Conforms ctx.api (some ctx.types)) {fault : Fault}
    (h : JavaScript.emit ctx = .error fault) : Codec.all ctx.types = .error fault := by
  rcases bind_eq_error_iff.mp h with hmodule | ⟨m, -, hpure⟩
  · rcases bind_eq_error_iff.mp hmodule with hcodecs | ⟨codecs, hcodecs, hrest⟩
    · exact hcodecs
    · -- with codecs for all records everything else is emitted
      have hemit : Succeeds (JavaScript.emit ctx) :=
        (succeeds_emit_iff valid).mpr (succeeds_codecs_iff.mp ⟨codecs, hcodecs⟩)
      rw [h] at hemit
      exact absurd hemit not_succeeds_error
  · cases hpure

/-- **When JavaScript gives up, and how.** A valid description is not emitted exactly when a cycle
can be reached from some record of the schema, or a vector of some record misses its count. Then the
fault is an internal one: it reports a cycle that can be reached, or a vector that misses its
count. -/
theorem emit_fault_iff {ctx : Context} (hvalid : ctx.api.validate (some ctx.types) = []) :
    ((∃ fault, JavaScript.emit ctx = .error fault) ↔
      (∃ n, ctx.types.isRecord n = true ∧ ∃ c, ctx.types.ReachesCycle n c) ∨
      ∃ n f, ctx.types.Miscounts n f) ∧
    ∀ fault, JavaScript.emit ctx = .error fault →
      (∃ n c, ctx.types.isRecord n = true ∧ ctx.types.ReachesCycle n c ∧
        fault = .internal ("type " ++ c ++ " contains itself by value")) ∨
      ∃ n f, ctx.types.Miscounts n f ∧
        fault = .internal (n ++ "." ++ f.name ++ " has no count slot") := by
  have valid : Conforms ctx.api (some ctx.types) := conforms_of_validate hvalid
  refine ⟨?_, fun fault h => fault_of_codecs (codecs_eq_error valid h)⟩
  have hfails : (∃ fault, JavaScript.emit ctx = .error fault) ↔
      ¬ Succeeds (JavaScript.emit ctx) := by
    cases h : JavaScript.emit ctx with
    | ok artifacts => exact iff_of_false nofun fun hnot => hnot succeeds_ok
    | error fault => exact iff_of_true ⟨fault, rfl⟩ not_succeeds_error
  rw [hfails, succeeds_emit_iff valid, ← not_acyclic_iff]
  -- With a cycle the counts do not matter, since the layout fails first.
  by_cases acyclic : ctx.types.Acyclic
  · rw [and_iff_right acyclic, not_countsApart_iff acyclic, or_iff_right (not_not.mpr acyclic)]
  · exact iff_of_true (fun h => acyclic h.1) (.inl acyclic)

/-- A record with a field that is called like the count of the vector behind it. -/
def tallyTypes : Schema :=
  Keyed.empty.insert "Tally" { kind := .table, fields := [⟨"marks_count", .primitive .uint32⟩,
    ⟨"marks", .vector (.primitive .int32)⟩] }

/-- A description that passes the record on. -/
def tallyContext : Context where
  api := {
    metadata := { name := "demo", version := "1.0.0", language := .rust }
    schemas := ["demo.fbs"]
    interfaces := [
      { name := "board",
        methods := [
          { name := "show",
            parameters := [{ name := "tally", type := "Tally", transfer := some .ref }] }] }] }
  types := tallyTypes

theorem miscounts_tally :
    tallyTypes.Miscounts "Tally" ⟨"marks", .vector (.primitive .int32)⟩ := by
  have hlayout : Abi.layout tallyTypes "Tally" = .ok
      { name := "Tally", size := 12, align := 4,
        slots := [⟨⟨"marks_count", .primitive .uint32, 4, 4⟩, 0⟩,
          ⟨⟨"marks", .pointer, 4, 4⟩, 4⟩, ⟨⟨"marks_count", .count, 4, 4⟩, 8⟩] } := by
    cbv
  exact ⟨_, _, _, _, rfl, rfl, by decide, rfl, trivial, hlayout, rfl, by decide⟩

/-- The description is valid, and the tally is not emitted. -/
theorem emit_fault_iff_tally :
    tallyContext.api.validate (some tallyContext.types) = [] ∧
      tallyContext.types.Miscounts "Tally" ⟨"marks", .vector (.primitive .int32)⟩ ∧
      ∃ detail, JavaScript.emit tallyContext = .error (.internal detail) := by
  have hvalid : tallyContext.api.validate (some tallyContext.types) = [] := by decide
  obtain ⟨hfails, hwhich⟩ := emit_fault_iff hvalid
  obtain ⟨fault, hfault⟩ := hfails.mpr (.inr ⟨_, _, miscounts_tally⟩)
  refine ⟨hvalid, miscounts_tally, ?_⟩
  rcases hwhich fault hfault with ⟨n, c, -, -, rfl⟩ | ⟨n, f, -, rfl⟩
  · exact ⟨_, hfault⟩
  · exact ⟨_, hfault⟩

end JavaScript

end Bindery
