import Bindery.Emit.JavaScript
import Bindery.Proofs.Emission.Go
import Bindery.Proofs.Nesting
import Bindery.Proofs.Wasm.Ranges

/-!
# The two sides of WebAssembly

JavaScript and Go read and write records in linear memory, so both need the layout of
every record of the schema, whether it crosses or not. A record that holds itself has
none (`Schema.Acyclic`).

A vector is read through two slots, its data and its count, and each is looked up by name.
The name of a count is made from that of the vector, and a field may have it already. Go
takes whatever slot has the name. JavaScript insists on a count, and gives up on another
slot that comes first (`CountsApart`).

* `Abi.find?_slots` — the slot that a name finds, as a question about fields;
* `JavaScript.succeeds_emit_iff` — the JavaScript binding is emitted exactly when no record
  holds itself and every count is found;
* `Go.succeeds_emitWasm_iff` — the exports of Go are emitted exactly when no record holds
  itself and every method that is dispatched can report its failure.
-/

namespace Bindery

open Validate

/-! ### Slots by name -/

/-- The field declares a slot with this name, as its own or as that of its count. -/
def Field.declares (n : String) (f : Field) : Bool :=
  f.name = n || (f.type.isVector && Abi.countName f.name = n)

namespace Abi

variable {types : Schema}

/-- **The parts of a field, by name and kind.** Only a vector has a count. -/
theorem Takes.names_kinds {inner : String → Layout → Prop} {f : Field} {parts : List Part}
    (h : Takes types inner f parts) :
    (f.type.isVector = false ∧ ∃ p, parts = [p] ∧ p.name = f.name ∧ p.kind ≠ .count) ∨
    (f.type.isVector = true ∧ ∃ p q, parts = [p, q] ∧ p.name = f.name ∧ p.kind ≠ .count ∧
      q.name = countName f.name ∧ q.kind = .count) := by
  cases h with
  | vector element type =>
    exact .inr ⟨by rw [type]; rfl, _, _, rfl, rfl, nofun, rfl, rfl⟩
  | primitive _ type | string type | enum _ type | record _ _ type | reference _ type =>
    exact .inl ⟨by rw [type]; rfl, _, rfl, rfl, nofun⟩

/-- The slot that a name finds among those of one field. -/
theorem find?_slots_of_takes {inner : String → Layout → Prop} {f : Field} {chunk : List Slot}
    (h : Takes types inner f (chunk.map (·.toPart))) (n : String) :
    (f.declares n = false ∧ chunk.find? (fun s => s.name == n) = none) ∨
    (f.declares n = true ∧ ∃ s, chunk.find? (fun s => s.name == n) = some s ∧
      (s.kind = .count ↔ f.name ≠ n)) := by
  unfold Field.declares
  -- A field takes one slot, or two with the count behind the data.
  rcases h.names_kinds with ⟨hvector, p, hp, hname, hkind⟩ |
    ⟨hvector, p, q, hpq, hname, hkind, hcount, hqkind⟩
  · obtain ⟨s, rfl, rfl⟩ := List.map_eq_singleton_iff.mp hp
    by_cases hn : f.name = n
    · refine .inr ⟨by simp [hn], s, by simp [hname, hn], ?_⟩
      exact iff_of_false hkind fun h => h hn
    · exact .inl ⟨by simp [hn, hvector], by simp [hname, hn]⟩
  · obtain ⟨s, rest, rfl, rfl, hrest⟩ := List.map_eq_cons_iff.mp hpq
    obtain ⟨c, rfl, rfl⟩ := List.map_eq_singleton_iff.mp hrest
    by_cases hn : f.name = n
    · -- the data of the vector come before its count
      refine .inr ⟨by simp [hn], s, by simp [hname, hn], ?_⟩
      exact iff_of_false hkind fun h => h hn
    · by_cases hc : countName f.name = n
      · refine .inr ⟨by simp [hvector, hc], c, by simp [hname, hn, hcount, hc], ?_⟩
        exact iff_of_true hqkind hn
      · exact .inl ⟨by simp [hn, hc], by simp [hname, hn, hcount, hc]⟩

/-- **The slot that a name finds** is one of the first field that declares the name, and it is
a count exactly when the field itself is called otherwise. -/
theorem find?_slots {fields : List Field} {chunks : List (List Slot)}
    (h : FieldSlots types fields chunks) (n : String) :
    (fields.find? (·.declares n) = none ∧ chunks.flatten.find? (fun s => s.name == n) = none) ∨
    ∃ g s, fields.find? (·.declares n) = some g ∧
      chunks.flatten.find? (fun s => s.name == n) = some s ∧ (s.kind = .count ↔ g.name ≠ n) := by
  unfold FieldSlots at h
  -- The first field that declares the name has the first slot of that name.
  induction h with
  | nil => exact .inl ⟨rfl, rfl⟩
  | @cons f chunk fields chunks htakes _ ih =>
    rw [List.flatten_cons, List.find?_append]
    rcases find?_slots_of_takes htakes n with ⟨hdeclares, hnone⟩ | ⟨hdeclares, s, hs, hkind⟩
    · rw [List.find?_cons_of_neg (by simp [hdeclares]), hnone]
      exact ih
    · rw [List.find?_cons_of_pos hdeclares, hs]
      exact .inr ⟨f, s, rfl, rfl, hkind⟩

/-- The count of a vector is found, or something else that was declared before. -/
theorem exists_slot_countName {l : Layout} {fields : List Field} {chunks : List (List Slot)}
    (hslots : l.slots = chunks.flatten) (hfields : FieldSlots types fields chunks) {f : Field}
    (hf : f ∈ fields) (hvector : f.type.isVector = true) :
    ∃ g s, fields.find? (·.declares (countName f.name)) = some g ∧
      l.slot? (countName f.name) = some s ∧ (s.kind = .count ↔ g.name ≠ countName f.name) := by
  rcases find?_slots hfields (countName f.name) with ⟨hnone, -⟩ | ⟨g, s, hg, hs, hkind⟩
  · -- the vector itself declares the name
    have hdeclares : f.declares (countName f.name) = true := by simp [Field.declares, hvector]
    exact absurd hdeclares (List.find?_eq_none.mp hnone f hf)
  · exact ⟨g, s, hg, by rw [Layout.slot?, hslots, hs], hkind⟩

end Abi

/-- The type of an element that can be read: neither a vector nor a reference to something
that is not looked through. -/
def Schema.Readable (types : Schema) : FieldType → Prop
  | .primitive _ | .string => True
  | .vector _ => False
  | .named n => types.isEnum n = true ∨ types.isRecord n = true

/-- **The count of a field is found** among the fields of its record. Where the field is a
vector with elements that can be read, no field that is called like its count comes
before. -/
def Schema.CountFound (types : Schema) (fields : List Field) (f : Field) : Prop :=
  ∀ element, f.type = .vector element → types.Readable element →
    ∀ g, fields.find? (·.declares (Abi.countName f.name)) = some g →
      g.name ≠ Abi.countName f.name

/-- **Every count is found.** -/
def Schema.CountsApart (types : Schema) : Prop :=
  ∀ n d, types.get? n = some d → d.isRecord = true → ∀ f ∈ d.fields, types.CountFound d.fields f

/-! ### Sizes without cycles -/

/-- No record holds itself exactly when each one that is declared has a layout. -/
theorem acyclic_iff_records {types : Schema} :
    types.Acyclic ↔ ∀ e ∈ types.records, Succeeds (Abi.layout types e.1) := by
  rw [Abi.acyclic_iff_layouts]
  constructor
  · rintro h ⟨n, d⟩ hmem
    obtain ⟨hd, hrec⟩ := Schema.mem_records_iff.mp hmem
    exact h n (Schema.isRecord_iff.mpr ⟨d, hd, hrec⟩)
  · intro h n hn
    obtain ⟨d, hd, hrec⟩ := Schema.isRecord_iff.mp hn
    exact h (n, d) (Schema.mem_records_iff.mpr ⟨hd, hrec⟩)

section Acyclic

variable {ctx : Context} (acyclic : ctx.types.Acyclic)

include acyclic

theorem succeeds_layout {n : String} (h : ctx.types.isRecord n = true) :
    Succeeds (Abi.layout ctx.types n) :=
  Abi.acyclic_iff_layouts.mp acyclic n h

/-- What can be passed takes room. -/
theorem succeeds_valueSize {ty : String} {t : TypeRef} (ht : Abi.classify ty = .ok t)
    (hpass : ctx.CanPass t) : Succeeds (Abi.valueSize ctx.types ty) := by
  unfold Abi.valueSize
  rw [classify_eq_ok_iff.mp ht]
  cases t with
  | string | buffer _ | handle _ | primitive _ => exact succeeds_ok
  | qualified q =>
    obtain ⟨d, hd, hkind⟩ := hpass.exists_typeDef
    simp only [hd]
    cases henum : d.isEnum with
    -- A record's size comes from its layout; an enum's is fixed.
    | true => exact succeeds_ok
    | false =>
      have hrecord : d.isRecord = true := hkind.resolve_left (by simp [henum])
      rw [if_neg Bool.false_ne_true, succeeds_map_iff]
      exact succeeds_layout acyclic (Schema.isRecord_iff.mpr ⟨d, hd, hrecord⟩)

end Acyclic

/-! ### JavaScript -/

namespace JavaScript

variable {types : Schema}

theorem isSome_ofField?_iff {t : FieldType} :
    (Cell.ofField? types t).isSome = true ↔ types.Readable t := by
  cases t with
  | primitive _ | string => exact iff_of_true rfl trivial
  | vector _ => exact iff_of_false nofun id
  | named n =>
    rw [Cell.ofField?, Cell.ofName?_eq]
    show _ ↔ types.isEnum n = true ∨ types.isRecord n = true
    by_cases henum : types.isEnum n = true
    · simp [henum]
    · by_cases hrecord : types.isRecord n = true <;> simp [henum, hrecord]

/-- Without cycles an element has a stride. -/
theorem succeeds_stride (acyclic : types.Acyclic) {t : FieldType} {cell : Cell}
    (h : Cell.ofField? types t = some cell) : Succeeds (cell.stride types) := by
  cases cell with
  | scalar _ | text => exact succeeds_ok
  | record q =>
    have hrecord : types.isRecord q = true := by
      cases t with
      | primitive _ | string | vector _ => simp [Cell.ofField?] at h
      | named n =>
        rw [Cell.ofField?, Cell.ofName?_eq] at h
        split at h
        · cases h
        · split at h
          · next hn =>
            obtain rfl : n = q := by simpa using h
            exact hn
          · cases h
    unfold Cell.stride
    rw [succeeds_mapError_iff, succeeds_map_iff]
    exact Abi.acyclic_iff_layouts.mp acyclic q hrecord

/-- **One field.** Reading it fails only if something else is found in place of its count. -/
theorem succeeds_access_iff (acyclic : types.Acyclic) {l : Abi.Layout} {fields : List Field}
    {chunks : List (List Abi.Slot)} (hslots : l.slots = chunks.flatten)
    (hfields : Abi.FieldSlots types fields chunks) {f : Field} (hf : f ∈ fields) :
    Succeeds (Access.ofField types l f) ↔ types.CountFound fields f := by
  obtain ⟨slot, hslot⟩ := Wasm.exists_slot hslots hfields hf
  unfold Access.ofField Schema.CountFound
  rw [hslot]
  cases htype : f.type with
  | primitive _ | string | named _ => exact iff_of_true succeeds_ok nofun
  | vector element =>
    obtain ⟨g, s, hg, hs, hkind⟩ :=
      Abi.exists_slot_countName hslots hfields hf (by rw [htype]; rfl)
    cases hcell : Cell.ofField? types element with
    | none =>
      -- such a vector is left out, whatever its count is
      simp only [hcell]
      refine iff_of_true succeeds_ok ?_
      rintro _ ⟨⟩ hreadable
      rw [← isSome_ofField?_iff, hcell] at hreadable
      cases hreadable
    | some cell =>
      have hreadable : types.Readable element := by
        rw [← isSome_ofField?_iff, hcell]
        rfl
      simp only [hcell, hs, Option.filter_some]
      -- the slot that the name of the count finds is a count, or another field came first
      by_cases hcount : s.kind = .count
      · refine iff_of_true ?_ ?_
        · simp only [hcount, decide_true, if_true]
          rw [succeeds_bind_pure_iff]
          exact succeeds_stride acyclic hcell
        · rintro _ ⟨⟩ - g' hg'
          obtain rfl : g = g' := Option.some.inj (hg.symm.trans hg')
          exact hkind.mp hcount
      · refine iff_of_false ?_ fun h => hcount (hkind.mpr (h element rfl hreadable g hg))
        simp only [hcount, decide_false, Bool.false_eq_true, if_false]
        exact not_succeeds_error

/-- One record. -/
theorem succeeds_codec_iff (acyclic : types.Acyclic) {n : String} {d : TypeDef} {l : Abi.Layout}
    (hd : types.get? n = some d) (hl : Abi.layout types n = .ok l) :
    Succeeds (Codec.ofLayout types d l) ↔ ∀ f ∈ d.fields, types.CountFound d.fields f := by
  obtain ⟨d', chunks, hd', -, hslots, hfields⟩ := Abi.exists_fieldSlots hl
  obtain rfl : d = d' := Option.some.inj (hd.symm.trans hd')
  unfold Codec.ofLayout
  rw [succeeds_bind_pure_iff, succeeds_mapM_iff]
  exact forall₂_congr fun f hf => succeeds_access_iff acyclic hslots hfields hf

theorem succeeds_layouts_iff {α : Type} {f : String × TypeDef → Abi.Layout → α} :
    Succeeds (types.records.mapM fun e => do
      return f e (← (Abi.layout types e.1).mapError layoutFault)) ↔ types.Acyclic := by
  rw [acyclic_iff_records, succeeds_mapM_iff]
  simp only [succeeds_bind_pure_iff, succeeds_mapError_iff]

/-- **All codecs are made exactly when no record holds itself and every count is found.** -/
theorem succeeds_codecs_iff :
    Succeeds (Codec.all types) ↔ types.Acyclic ∧ types.CountsApart := by
  unfold Codec.all
  -- all layouts come first, so within the second step no record holds itself
  rw [← succeeds_layouts_iff (f := fun e l => (e.2, l))]
  refine succeeds_bind_iff fun layouts hlayouts => ?_
  have acyclic : types.Acyclic :=
    succeeds_layouts_iff (f := fun e l => (e.2, l)).mp ⟨layouts, hlayouts⟩
  have hall := mapM_eq_ok_iff.mp hlayouts
  rw [succeeds_mapM_iff]
  constructor
  · intro h n d hd hrec
    obtain ⟨⟨d', l⟩, hmem, hpair⟩ :=
      exists_mem_of_forall₂ hall (Schema.mem_records_iff.mpr ⟨hd, hrec⟩)
    obtain ⟨l', hl, heq⟩ := bind_eq_ok_iff.mp hpair
    obtain ⟨rfl, rfl⟩ := Prod.mk.inj (pure_eq_ok_iff.mp heq)
    exact (succeeds_codec_iff acyclic hd (mapError_eq_ok_iff.mp hl)).mp (h _ hmem)
  · rintro h ⟨d', l⟩ hmem
    obtain ⟨⟨n, d⟩, hrecord, hpair⟩ := exists_mem_of_forall₂ hall.flip hmem
    obtain ⟨hd, hrec⟩ := Schema.mem_records_iff.mp hrecord
    obtain ⟨l', hl, heq⟩ := bind_eq_ok_iff.mp hpair
    obtain ⟨rfl, rfl⟩ := Prod.mk.inj (pure_eq_ok_iff.mp heq)
    exact (succeeds_codec_iff acyclic hd (mapError_eq_ok_iff.mp hl)).mpr (h n d hd hrec)

/-! ### Calls from JavaScript -/

section Calls

variable {ctx : Context} (acyclic : ctx.types.Acyclic)

omit types

theorem exists_ofName? {q : String} (h : ctx.CanPass (.qualified q)) :
    ∃ cell, Cell.ofName? ctx.types q = some cell := by
  rw [Cell.ofName?_eq]
  by_cases henum : ctx.types.isEnum q = true
  · exact ⟨_, if_pos henum⟩
  · rw [if_neg henum, if_pos (h.resolve_left henum)]
    exact ⟨_, rfl⟩

include acyclic in
theorem succeeds_marshal {p : Parameter} {t : TypeRef} (ht : Abi.classify p.type = .ok t)
    (hpass : ctx.CanPass t) : Succeeds (marshal ctx p) := by
  unfold marshal
  rw [ht]
  cases t with
  | string | buffer _ | handle _ => exact ⟨_, rfl⟩
  | primitive q => cases q <;> exact ⟨_, rfl⟩
  | qualified q =>
    refine succeeds_ok.bind ?_
    rintro _ ⟨⟩
    -- A cell stands for every type that can be passed, and its size is known as no record holds
    -- itself.
    obtain ⟨cell, hcell⟩ := exists_ofName? hpass
    obtain ⟨size, hsize⟩ := succeeds_valueSize acyclic ht hpass
    unfold marshalSchema
    simp only [hcell, hsize]
    cases cell with
    | scalar _ => cases p.effectiveTransfer <;> exact ⟨_, rfl⟩
    | text | record _ => exact ⟨_, rfl⟩

theorem succeeds_readResult {ty : String} {t : TypeRef} (ht : Abi.classify ty = .ok t)
    (hreturn : ctx.CanReturn t) : Succeeds (readResult ctx ty) := by
  unfold readResult
  rw [ht]
  cases t with
  | string | buffer _ => exact hreturn.elim
  | handle _ | primitive _ => exact ⟨_, rfl⟩
  | qualified q =>
    obtain ⟨cell, hcell⟩ := exists_ofName? hreturn.canPass
    refine succeeds_ok.bind ?_
    rintro _ ⟨⟩
    simp only [hcell]
    exact succeeds_pure

theorem succeeds_convertResult {ty : String} {t : TypeRef} (ht : Abi.classify ty = .ok t) :
    Succeeds (convertResult ty) := by
  unfold convertResult
  rw [ht]
  cases t with
  | primitive q => cases q <;> exact ⟨_, rfl⟩
  | string | buffer _ | handle _ | qualified _ => exact ⟨_, rfl⟩

theorem succeeds_outcomeOf {m : Method} (hm : ctx.Reads m) : Succeeds (outcomeOf ctx m) := by
  unfold outcomeOf
  cases hreturns : m.returns with
  | none => cases m.error <;> exact succeeds_ok
  | some r =>
    -- What can be returned can be read back or converted, with the error type deciding which.
    obtain ⟨t, ht, hreturn⟩ := hm.returns r hreturns
    cases m.error with
    | some e =>
      rw [succeeds_map_iff]
      exact succeeds_readResult ht hreturn
    | none =>
      dsimp only
      split
      · rw [succeeds_map_iff]
        exact succeeds_readResult ht hreturn
      · rw [succeeds_map_iff]
        exact succeeds_convertResult ht

/-- A result pointer is for the result that the method writes. -/
theorem returns_of_resultPlace? {m : Method} {place : ResultPlace} {ty : String}
    (h : resultPlace? ctx m = some (place, ty)) : ∃ r, m.returns = some r ∧ ty = r.type := by
  unfold resultPlace? at h
  cases hreturns : m.returns with
  | none => cases herror : m.error <;> simp [hreturns, herror] at h
  | some r =>
    refine ⟨r, rfl, ?_⟩
    cases herror : m.error with
    | some e => simp_all
    | none =>
      simp only [hreturns, herror] at h
      split at h
      · exact (Prod.mk.inj (Option.some.inj h)).2.symm
      · cases h

include acyclic in
theorem succeeds_wrapper {op : Operation} (hm : ctx.Reads op.method) :
    Succeeds (Wrapper.ofOperation ctx op) := by
  -- The parameters, the outcome and the place for the result each succeed by themselves.
  obtain ⟨parts, hparts⟩ : Succeeds (op.method.parameters.mapM (marshal ctx)) :=
    hm.succeeds_parameters (fun p t ht hpass => succeeds_marshal acyclic ht hpass)
      (List.Subset.refl _)
  obtain ⟨outcome, houtcome⟩ := succeeds_outcomeOf hm
  unfold Wrapper.ofOperation
  simp only [hparts, houtcome]
  cases hplace : resultPlace? ctx op.method with
  | none => exact ⟨_, rfl⟩
  | some place =>
    obtain ⟨r, hr, htype⟩ := returns_of_resultPlace? hplace
    obtain ⟨t, ht, hreturn⟩ := hm.returns r hr
    obtain ⟨size, hsize⟩ := succeeds_valueSize acyclic ht hreturn.canPass
    simp only [htype, hsize]
    exact ⟨_, rfl⟩

end Calls

/-- **The JavaScript binding is emitted exactly when no record holds itself and every count
is found.** -/
theorem succeeds_emit_iff {ctx : Context} (valid : Conforms ctx.api (some ctx.types)) :
    Succeeds (JavaScript.emit ctx) ↔ ctx.types.Acyclic ∧ ctx.types.CountsApart := by
  unfold JavaScript.emit Module.ofContext
  -- The codecs are where it can fail; what comes behind them succeeds.
  rw [succeeds_bind_pure_iff, ← succeeds_codecs_iff, succeeds_bind_iff (P := True), and_true]
  intro codecs hcodecs
  have acyclic := (succeeds_codecs_iff.mp ⟨codecs, hcodecs⟩).1
  refine iff_of_true ?_ trivial
  simp only [succeeds_bind_pure_iff, succeeds_mapM_iff]
  intro i hi
  unfold wrappers
  rw [succeeds_mapM_iff]
  intro op hop
  exact succeeds_wrapper acyclic (ctx.reads_of_interface valid hi (List.mem_filter.mp hop).1)

end JavaScript

/-! ### Go -/

namespace Go

variable {types : Schema}

theorem succeeds_stride (acyclic : types.Acyclic) {t : FieldType} {v : Value}
    (h : Value.ofScalar? types t = some v) : Succeeds (stride types v) := by
  cases v with
  | scalar _ | text | enum _ _ => exact succeeds_ok
  | record q =>
    -- A value that is a record has come from a name in the schema that is one.
    have hrecord : types.isRecord q = true := by
      cases t with
      | primitive _ | string | vector _ => simp [Value.ofScalar?] at h
      | named n =>
        rw [Value.ofScalar?, Value.ofName?_eq] at h
        split at h
        · cases h
        · split at h
          · next hn =>
            obtain rfl : n = q := by simpa using h
            exact hn
          · cases h
    unfold stride
    rw [succeeds_mapError_iff, succeeds_map_iff]
    exact Abi.acyclic_iff_layouts.mp acyclic q hrecord

/-- **One field.** Go takes any slot for a count, and there always is one. -/
theorem succeeds_wasmAccess (acyclic : types.Acyclic) {l : Abi.Layout} {fields : List Field}
    {chunks : List (List Abi.Slot)} (hslots : l.slots = chunks.flatten)
    (hfields : Abi.FieldSlots types fields chunks) {f : Field} (hf : f ∈ fields) :
    Succeeds (WasmAccess.ofField types l f) := by
  obtain ⟨slot, hslot⟩ := Wasm.exists_slot hslots hfields hf
  unfold WasmAccess.ofField
  -- Lists have a slot for their elements and one for their count.
  rw [hslot]
  cases hshape : Shape.ofField types f.type with
  | one v | hidden => exact succeeds_ok
  | many v =>
    obtain ⟨element, htype, hv⟩ := Wasm.exists_element_of_shape_many hshape
    obtain ⟨-, s, -, hs, -⟩ :=
      Abi.exists_slot_countName hslots hfields hf (by rw [htype]; rfl)
    simp only [hs]
    rw [succeeds_bind_pure_iff]
    exact succeeds_stride acyclic hv

/-- **All codecs are made exactly when no record holds itself.** -/
theorem succeeds_wasmCodecs_iff : Succeeds (WasmCodec.all types) ↔ types.Acyclic := by
  unfold WasmCodec.all
  rw [succeeds_mapM_iff]
  constructor
  · -- each codec needs the layout of its own record
    intro h
    refine acyclic_iff_records.mpr fun e he => ?_
    obtain ⟨codec, hcodec⟩ := h e he
    obtain ⟨l, hl, -⟩ := bind_eq_ok_iff.mp hcodec
    exact ⟨l, mapError_eq_ok_iff.mp hl⟩
  · rintro acyclic ⟨n, d⟩ hmem
    obtain ⟨l, hl⟩ := acyclic_iff_records.mp acyclic _ hmem
    obtain ⟨d', chunks, hd', -, hslots, hfields⟩ := Abi.exists_fieldSlots hl
    obtain rfl : d = d' := Option.some.inj ((Schema.mem_records_iff.mp hmem).1.symm.trans hd')
    refine Succeeds.bind (succeeds_mapError_iff.mpr ⟨l, hl⟩) fun l' hl' => ?_
    obtain rfl : l = l' := Except.ok.inj (hl.symm.trans (mapError_eq_ok_iff.mp hl'))
    rw [succeeds_bind_pure_iff, succeeds_mapM_iff]
    intro f hf
    exact succeeds_wasmAccess acyclic hslots hfields hf

/-! ### Calls into Go -/

section Exports

variable {ctx : Context}

omit types

theorem succeeds_wasmLower {p : Parameter} {t : TypeRef} (ht : Abi.classify p.type = .ok t)
    (hpass : ctx.CanPass t) : Succeeds (WasmParam.lower ctx p) := by
  unfold WasmParam.lower
  rw [ht]
  cases t with
  | string | buffer _ | handle _ | primitive _ => exact ⟨_, rfl⟩
  | qualified q =>
    -- All names that can be passed have a value, and the transfer matters for enums only.
    obtain ⟨v, hv⟩ := exists_ofName? hpass
    refine succeeds_ok.bind ?_
    rintro _ ⟨⟩
    simp only [hv]
    cases v with
    | enum _ _ => cases p.effectiveTransfer <;> exact ⟨_, rfl⟩
    | scalar _ | text | record _ => exact ⟨_, rfl⟩

theorem succeeds_wasmAnswer {m : Method} (hm : ctx.Reads m) :
    Succeeds (WasmAnswer.ofMethod ctx m) := by
  unfold WasmAnswer.ofMethod
  cases m.error with
  | some e => exact succeeds_ok
  | none =>
    cases hreturns : m.returns with
    | none => exact succeeds_ok
    | some r =>
      obtain ⟨t, ht, hreturn⟩ := hm.returns r hreturns
      show Succeeds (WasmAnswer.ofText ctx r.type)
      unfold WasmAnswer.ofText
      rw [ht]
      cases t with
      -- texts and buffers are no results
      | string | buffer _ => exact hreturn.elim
      | handle _ | primitive _ => exact ⟨_, rfl⟩
      | qualified q =>
        obtain ⟨v, hv⟩ := exists_ofName? hreturn.canPass
        refine succeeds_ok.bind ?_
        rintro _ ⟨⟩
        simp only [hv]
        cases v <;> exact ⟨_, rfl⟩

theorem succeeds_wasmConstructor {m : Method} {handle : String}
    (h : m.returnedHandle? = some handle) : Succeeds (wasmConstructor m) := by
  unfold wasmConstructor
  rw [succeeds_bind_pure_iff]
  exact succeeds_constructedStruct h

theorem succeeds_wasmPass {p : Parameter} {t : TypeRef} (ht : Abi.classify p.type = .ok t)
    (hpass : ctx.CanPass t) : Succeeds (wasmPass ctx p) := by
  unfold wasmPass
  rw [ht]
  cases t with
  | primitive q => cases q <;> exact ⟨_, rfl⟩
  | string | buffer _ | handle _ => exact ⟨_, rfl⟩
  | qualified q =>
    obtain ⟨v, hv⟩ := succeeds_ofName hpass
    refine succeeds_ok.bind ?_
    rintro _ ⟨⟩
    simp only [hv]
    -- What is passed by value is converted, and what is passed by reference is read in place.
    cases p.effectiveTransfer with
    | value => cases v <;> exact ⟨_, rfl⟩
    | ref | refMut => exact ⟨_, rfl⟩

theorem succeeds_wasmStore {ty : String} {t : TypeRef} (dest : String)
    (ht : Abi.classify ty = .ok t) (hreturn : ctx.CanReturn t) : Succeeds (wasmStore ctx ty dest) := by
  unfold wasmStore
  rw [ht]
  cases t with
  | buffer _ => exact hreturn.elim
  | string | handle _ | primitive _ => exact ⟨_, rfl⟩
  | qualified q =>
    refine succeeds_ok.bind ?_
    rintro _ ⟨⟩
    rw [succeeds_bind_pure_iff]
    exact succeeds_ofName hreturn.canPass

/-- A result that is not stored is a number or a handle. -/
theorem succeeds_wasmReturn {ty : String} {t : TypeRef} (ht : Abi.classify ty = .ok t)
    (hreturn : ctx.CanReturn t) (hrecord : Abi.isRecordType ctx.types ty = false) :
    Succeeds (wasmReturn ctx ty) := by
  unfold wasmReturn
  rw [ht]
  cases t with
  | string | buffer _ => exact hreturn.elim
  | handle _ => exact ⟨_, rfl⟩
  | primitive p => cases p <;> exact ⟨_, rfl⟩
  | qualified q =>
    have hnot : ctx.types.isRecord q = false := by
      rw [Abi.isRecordType, classify_eq_ok_iff.mp ht] at hrecord
      exact hrecord
    -- Records do not come here, so what is returned is an enum.
    have henum : ctx.types.isEnum q = true := hreturn.resolve_right (by simp [hnot])
    refine succeeds_ok.bind ?_
    rintro _ ⟨⟩
    simp only [Value.ofName?_eq, if_pos henum]
    exact succeeds_pure

theorem succeeds_wasmBail {m : Method} (answer : WasmAnswer) (hreports : ctx.Reports m) :
    Succeeds (wasmBail ctx m answer) := by
  cases answer with
  | status =>
    show Succeeds (do return "return " ++ toString (← failureCode ctx m))
    rw [succeeds_bind_pure_iff]
    exact succeeds_failureCode_iff.mpr hreports
  | handle | number _ | void | stored => exact succeeds_ok

/-- **A method is dispatched exactly when its failure can be reported.** -/
theorem succeeds_wasmDispatch_iff {op : Operation} {answer : WasmAnswer}
    (hm : ctx.Reads op.method) (hanswer : WasmAnswer.ofMethod ctx op.method = .ok answer) :
    Succeeds (wasmDispatch ctx op answer) ↔ ctx.Reports op.method := by
  unfold wasmDispatch
  constructor
  · rintro ⟨body, hbody⟩
    obtain ⟨bail, -, hbody⟩ := bind_eq_ok_iff.mp hbody
    obtain ⟨passed, -, hbody⟩ := bind_eq_ok_iff.mp hbody
    obtain ⟨fallback, hfallback, -⟩ := bind_eq_ok_iff.mp hbody
    exact succeeds_failureCode_iff.mp ⟨fallback, hfallback⟩
  · intro hreports
    obtain ⟨bail, hbail⟩ := succeeds_wasmBail answer hreports
    obtain ⟨fallback, hfallback⟩ := succeeds_failureCode_iff.mpr hreports
    obtain ⟨passed, hpassed⟩ : Succeeds ((op.method.parameters.drop 1).mapM (wasmPass ctx)) :=
      hm.succeeds_parameters (fun p t ht hpass => succeeds_wasmPass ht hpass)
        (List.drop_subset 1 _)
    simp only [hbail, hpassed, hfallback]
    cases hreturns : op.method.returns with
    | none => cases op.method.error <;> exact ⟨_, rfl⟩
    | some r =>
      obtain ⟨t, ht, hreturn⟩ := hm.returns r hreturns
      cases herror : op.method.error with
      | some e =>
        obtain ⟨store, hstore⟩ := succeeds_wasmStore Abi.outName ht hreturn
        simp only [hstore]
        exact ⟨_, rfl⟩
      | none =>
        -- what is stored is a record, and what is returned is none
        by_cases hstored : answer = .stored
        · obtain ⟨store, hstore⟩ := succeeds_wasmStore leadingResult ht hreturn
          simp only [if_pos hstored, hstore]
          exact ⟨_, rfl⟩
        · have hrecord : Abi.isRecordType ctx.types r.type = false := by
            rw [WasmAnswer.ofMethod, herror, hreturns] at hanswer
            rcases Wasm.ofText_cases hanswer with ⟨-, h⟩ | ⟨h, -⟩
            · exact absurd h hstored
            · exact h
          obtain ⟨last, hlast⟩ := succeeds_wasmReturn ht hreturn hrecord
          simp only [if_neg hstored, hlast]
          exact ⟨_, rfl⟩

section Valid

variable (valid : Conforms ctx.api (some ctx.types))

include valid

/-- One exported function. -/
theorem succeeds_wasmExport_iff {i : Interface} (hi : i ∈ ctx.api.interfaces) {op : Operation}
    (hop : op ∈ i.operations) :
    Succeeds (WasmExport.ofOperation ctx op) ↔ (IsDispatched op → ctx.Reports op.method) := by
  have hm := ctx.reads_of_interface valid hi hop
  unfold WasmExport.ofOperation
  refine succeeds_bind_iff_right (succeeds_wasmAnswer hm) fun answer hanswer => ?_
  refine succeeds_bind_iff_right (hm.succeeds_parameters
    (fun p t ht hpass => succeeds_wasmLower ht hpass) (List.Subset.refl _)) fun params _ => ?_
  -- By the kind of operation; only what is dispatched to a handle can fail, for want of an error
  -- value.
  rcases mem_operations_iff.mp hop with ⟨c, hc, rfl⟩ | ⟨handle, -, rfl⟩ | ⟨m, -, rfl⟩
  · obtain ⟨⟨handle, hhandle⟩, -⟩ := ctx.exists_of_constructor valid hi hc
    refine iff_of_true ?_ nofun
    rw [succeeds_bind_pure_iff]
    exact succeeds_wasmConstructor hhandle
  · exact iff_of_true ⟨_, rfl⟩ nofun
  · by_cases hleading : m.leadingHandle?.isSome = true
    · simp only [if_pos hleading]
      rw [succeeds_bind_pure_iff, succeeds_wasmDispatch_iff hm hanswer]
      exact ⟨fun h _ => h, fun h => h ⟨rfl, hleading⟩⟩
    · simp only [if_neg hleading]
      exact iff_of_true ⟨_, rfl⟩ fun h => absurd h.2 hleading

/-- **The exports of Go are emitted exactly when no record holds itself and all dispatched
methods can report their failure.** -/
theorem succeeds_emitWasm_iff :
    Succeeds (Go.emitWasm ctx) ↔ ctx.types.Acyclic ∧ CanDispatch ctx := by
  unfold Go.emitWasm WasmFile.ofContext CanDispatch
  rw [succeeds_bind_pure_iff, ← succeeds_wasmCodecs_iff, ← forall_isDispatched_iff]
  refine succeeds_bind_iff fun codecs _ => ?_
  simp only [succeeds_bind_pure_iff, succeeds_mapM_iff]
  exact forall₂_congr fun i hi => forall₂_congr fun op hop => succeeds_wasmExport_iff valid hi hop

end Valid

end Exports

end Go

end Bindery
