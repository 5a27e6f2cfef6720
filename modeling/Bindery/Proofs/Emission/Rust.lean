import Bindery.Emit.Rust
import Bindery.Proofs.Emission.Basic
import Bindery.Proofs.Names.Description
import Bindery.Proofs.Names.Schema
import Bindery.Proofs.Symbols

/-!
# The Rust skeleton

Everything that the skeleton declares has a name, and a name must be an identifier. The
names of a description are in snake case and those of a schema are plain, so nearly all of
them are. Two are not. An enumeration may have a value that is called `_`, which is an
identifier and yet defines nothing; and between the brackets of a vector any text may stand.

* `succeeds_definitions_iff` — the schema types are defined exactly when neither occurs
  (`CanExpress`);
* `succeeds_traits`, `succeeds_exports` — traits and exported functions are always written;
* `succeeds_emit_iff` — the skeleton is emitted exactly when the schema types are defined.
-/

namespace Bindery

/-- The type that is named in a type, below vectors too. -/
def FieldType.mentioned? : FieldType → Option String
  | named n => some n
  | vector element => element.mentioned?
  | primitive _ | string => none

namespace Rust

/-- **The names of a schema can be written**: no value of an enumeration is called `_`, and
what vectors refer to has a name that Rust takes. -/
structure CanExpress (types : Schema) : Prop where
  values : ∀ n d, types.get? n = some d → d.isEnum = true → ∀ v ∈ d.values, v.name ≠ "_"
  elements : ∀ n d, types.get? n = some d → d.isRecord = true → ∀ f ∈ d.fields,
    ∀ element, f.type = .vector element → ∀ m, element.mentioned? = some m →
      IsName (Naming.flatTypeName m)

theorem succeeds_checkDefined_iff {names : List String} :
    Succeeds (checkDefined names) ↔ ∀ name ∈ names, name ≠ "_" := by
  unfold checkDefined
  rw [succeeds_ite_iff, List.all_eq_true]
  simp [definable]

theorem succeeds_chosenName {s : String} (h : IsPlain s) : Succeeds (chosenName s) :=
  succeeds_chosenName_iff.mpr h.isName

theorem succeeds_literalName {s : String} (h : IsPlain s) : Succeeds (literalName s) :=
  succeeds_literalName_iff.mpr h.isName

/-! ### Fields -/

/-- **A type can be written exactly when the name in it can.** -/
theorem succeeds_fieldType_iff {t : FieldType} :
    Succeeds (fieldType t) ↔ ∀ m, t.mentioned? = some m → IsName (Naming.flatTypeName m) := by
  induction t with
  | primitive _ | string => exact iff_of_true succeeds_ok nofun
  | vector element ih =>
    rw [fieldType, succeeds_bind_pure_iff]
    exact ih
  | named n =>
    rw [fieldType, succeeds_bind_pure_iff, succeeds_typeName_iff]
    simp [FieldType.mentioned?]

/-- Of the names in a field only that of an element may be none. -/
theorem succeeds_fieldBindings_iff {f : Field} (hf : f.WellNamed) :
    Succeeds (fieldBindings f) ↔ ∀ element, f.type = .vector element →
      ∀ m, element.mentioned? = some m → IsName (Naming.flatTypeName m) := by
  unfold fieldBindings
  refine succeeds_bind_iff_right (succeeds_chosenName hf.name) fun name _ => ?_
  have hcount : Succeeds (literalName (Abi.countName f.name)) :=
    succeeds_literalName (hf.name.append (by decide))
  cases htype : f.type with
  | primitive _ | string => exact iff_of_true ⟨_, rfl⟩ nofun
  | named n =>
    -- outside of brackets the scanner takes plain names only
    refine iff_of_true ?_ nofun
    have hname : Succeeds (typeName n) :=
      succeeds_typeName_iff.mpr (hf.reference n htype).flatTypeName.isName
    obtain ⟨ident, hident⟩ := hname
    simp only [fieldType, hident]
    exact ⟨_, rfl⟩
  | vector element =>
    obtain ⟨count, hcount⟩ := hcount
    simp only [FieldType.isVector, if_true, hcount]
    have hrest : ∀ type : Ty, Succeeds (do
        let length ← (Except.ok count : Except Fault String)
        let counts ← pure [(⟨length, .primitive .uint32⟩ : Binding)]
        pure (⟨name, type⟩ :: counts)) := fun _ => ⟨_, rfl⟩
    rw [succeeds_bind_iff (P := True) fun type _ => iff_of_true (hrest type) trivial, and_true,
      succeeds_fieldType_iff]
    simp [FieldType.mentioned?]

/-! ### Definitions -/

section Definitions

variable {n : String} {d : TypeDef} {x : Definition}

theorem succeeds_ofEnum (h : Schema.Declares (n, d)) : Succeeds (Definition.ofEnum n d) := by
  unfold Definition.ofEnum
  refine (succeeds_typeName_iff.mpr h.name.isDotted.flatTypeName.isName).bind fun _ _ => ?_
  rw [succeeds_bind_pure_iff, succeeds_mapM_iff]
  intro v hv
  rw [succeeds_bind_pure_iff]
  exact succeeds_chosenName (h.type.values v hv)

theorem succeeds_ofRecord_iff (h : Schema.Declares (n, d)) :
    Succeeds (Definition.ofRecord n d) ↔ ∀ f ∈ d.fields, ∀ element, f.type = .vector element →
      ∀ m, element.mentioned? = some m → IsName (Naming.flatTypeName m) := by
  unfold Definition.ofRecord
  refine succeeds_bind_iff_right
    (succeeds_typeName_iff.mpr h.name.isDotted.flatTypeName.isName) fun _ _ => ?_
  rw [succeeds_bind_pure_iff, succeeds_mapM_iff]
  exact forall₂_congr fun f hf => succeeds_fieldBindings_iff (h.type.fields f hf)

/-- The name of a type defines something. -/
theorem ne_underscore_of_typeName (h : IsTypeName n) {ident : String}
    (hident : typeName n = .ok ident) : ident ≠ "_" := by
  rw [Ne, eq_underscore_iff_of_chosenName hident]
  exact h.flatTypeName_ne

/-- **An enumeration defines its name and its values**, unless a value is called `_`. -/
theorem definable_ofEnum_iff (h : IsTypeName n) (hx : Definition.ofEnum n d = .ok x) :
    (∀ name ∈ x.names, name ≠ "_") ↔ ∀ v ∈ d.values, v.name ≠ "_" := by
  simp only [Definition.ofEnum, bind_eq_ok_iff, pure_eq_ok_iff, mapM_eq_ok_iff] at hx
  obtain ⟨ident, hident, values, hvalues, rfl⟩ := hx
  -- The type's own name is never the underscore, so the values decide.
  rw [Definition.names, List.forall_mem_cons, and_iff_right (ne_underscore_of_typeName h hident),
    List.forall_mem_map]
  constructor
  · intro hall v hv
    obtain ⟨pair, hpair, name, hname, rfl⟩ := exists_mem_of_forall₂ hvalues hv
    rw [Ne, ← eq_underscore_iff_of_chosenName hname]
    exact hall _ hpair
  · intro hall pair hpair
    obtain ⟨v, hv, name, hname, rfl⟩ := exists_mem_of_forall₂ hvalues.flip hpair
    rw [Ne, eq_underscore_iff_of_chosenName hname]
    exact hall v hv

theorem definable_ofRecord (h : IsTypeName n) (hx : Definition.ofRecord n d = .ok x) :
    ∀ name ∈ x.names, name ≠ "_" := by
  simp only [Definition.ofRecord, bind_eq_ok_iff, pure_eq_ok_iff] at hx
  obtain ⟨ident, hident, fields, -, rfl⟩ := hx
  rw [Definition.names, List.forall_mem_singleton]
  exact ne_underscore_of_typeName h hident

end Definitions

theorem mem_ofKind_enum_iff {types : Schema} {n : String} {d : TypeDef} :
    (n, d) ∈ types.ofKind .enum ↔ types.get? n = some d ∧ d.isEnum = true := by
  rw [Keyed.get?_eq_some_iff, Schema.ofKind, List.mem_filter]
  rfl

section Schema

variable {types : Schema} (named : types.WellNamed)

include named

theorem declares_of_get? {n : String} {d : TypeDef} (h : types.get? n = some d) :
    Schema.Declares (n, d) :=
  named _ (Keyed.get?_eq_some_iff.mp h)

theorem succeeds_enums :
    Succeeds ((types.ofKind .enum).mapM fun e => Definition.ofEnum e.1 e.2) := by
  rw [succeeds_mapM_iff]
  rintro ⟨n, d⟩ hmem
  exact succeeds_ofEnum (declares_of_get? named (mem_ofKind_enum_iff.mp hmem).1)

theorem succeeds_records_iff :
    Succeeds (types.records.mapM fun e => Definition.ofRecord e.1 e.2) ↔
      ∀ n d, types.get? n = some d → d.isRecord = true → ∀ f ∈ d.fields, ∀ element,
        f.type = .vector element → ∀ m, element.mentioned? = some m →
          IsName (Naming.flatTypeName m) := by
  rw [succeeds_mapM_iff]
  constructor
  · intro h n d hd hkind
    exact (succeeds_ofRecord_iff (declares_of_get? named hd)).mp
      (h (n, d) (Schema.mem_records_iff.mpr ⟨hd, hkind⟩))
  · rintro h ⟨n, d⟩ hmem
    obtain ⟨hd, hkind⟩ := Schema.mem_records_iff.mp hmem
    exact (succeeds_ofRecord_iff (declares_of_get? named hd)).mpr (h n d hd hkind)

/-- Only the values of enumerations may define nothing. -/
theorem definable_iff {enums records : List Definition}
    (henums : List.Forall₂ (fun e x => Definition.ofEnum e.1 e.2 = .ok x) (types.ofKind .enum) enums)
    (hrecords : List.Forall₂ (fun e x => Definition.ofRecord e.1 e.2 = .ok x) types.records
      records) :
    (∀ name ∈ (enums ++ records).flatMap Definition.names, name ≠ "_") ↔
      ∀ n d, types.get? n = some d → d.isEnum = true → ∀ v ∈ d.values, v.name ≠ "_" := by
  constructor
  · intro h n d hd hkind
    obtain ⟨x, hx, hmade⟩ := exists_mem_of_forall₂ henums (mem_ofKind_enum_iff.mpr ⟨hd, hkind⟩)
    refine (definable_ofEnum_iff (declares_of_get? named hd).name hmade).mp fun name hname => ?_
    exact h name (List.mem_flatMap.mpr ⟨x, List.mem_append_left _ hx, hname⟩)
  · intro h name hname
    obtain ⟨x, hx, hname⟩ := List.mem_flatMap.mp hname
    rcases List.mem_append.mp hx with hx | hx
    · -- an enumeration defines its values too
      obtain ⟨⟨n, d⟩, hmem, hmade⟩ := exists_mem_of_forall₂ henums.flip hx
      obtain ⟨hd, hkind⟩ := mem_ofKind_enum_iff.mp hmem
      have hname' := (declares_of_get? named hd).name
      exact (definable_ofEnum_iff hname' hmade).mpr (h n d hd hkind) name hname
    · -- a record defines its own name and nothing else
      obtain ⟨⟨n, d⟩, hmem, hmade⟩ := exists_mem_of_forall₂ hrecords.flip hx
      have hd := (Schema.mem_records_iff.mp hmem).1
      exact definable_ofRecord (declares_of_get? named hd).name hmade name hname

/-- **The schema types are defined exactly when their names can be written.** -/
theorem succeeds_definitions_iff : Succeeds (definitions types) ↔ CanExpress types := by
  unfold definitions
  refine succeeds_bind_iff_right (succeeds_enums named) fun enums henums => ?_
  refine (succeeds_bind_iff (P := ∀ n d, types.get? n = some d → d.isEnum = true →
    ∀ v ∈ d.values, v.name ≠ "_") fun records hrecords => ?_).trans ?_
  · rw [succeeds_bind_pure_iff, succeeds_checkDefined_iff]
    exact definable_iff named (mapM_eq_ok_iff.mp henums) (mapM_eq_ok_iff.mp hrecords)
  · rw [succeeds_records_iff named]
    exact ⟨fun h => ⟨h.2, h.1⟩, fun h => ⟨h.elements, h.values⟩⟩

end Schema

/-! ### Parameters and results -/

section Methods

variable {ctx : Context} (named : ctx.types.WellNamed)

include named

/-- What can be passed by name has a name that can be written. -/
theorem succeeds_typeName {q : String} (h : ctx.CanPass (.qualified q)) :
    Succeeds (typeName q) := by
  obtain ⟨d, hd, -⟩ := h.exists_typeDef
  exact succeeds_typeName_iff.mpr
    (declares_of_get? named hd).name.isDotted.flatTypeName.isName

theorem succeeds_valueType {ty : String} {t : TypeRef} (ht : Abi.classify ty = .ok t)
    (hreturn : ctx.CanReturn t) : Succeeds (valueType ty) := by
  unfold valueType
  rw [ht]
  cases t with
  | string | buffer _ => exact hreturn.elim
  | handle _ | primitive _ => exact ⟨_, rfl⟩
  | qualified q =>
    refine succeeds_ok.bind ?_
    rintro _ ⟨⟩
    rw [succeeds_bind_pure_iff]
    exact succeeds_typeName named hreturn.canPass

theorem succeeds_borrowedParam {p : Parameter} {t : TypeRef} (hp : IsPlain p.name)
    (ht : Abi.classify p.type = .ok t) (hpass : ctx.CanPass t) :
    Succeeds (borrowedParam ctx p) := by
  obtain ⟨name, hname⟩ := succeeds_chosenName hp
  unfold borrowedParam
  simp only [hname, ht]
  cases t with
  | string | buffer _ | handle _ | primitive _ => exact ⟨_, rfl⟩
  | qualified q =>
    obtain ⟨ident, hident⟩ := succeeds_typeName named hpass
    refine succeeds_ok.bind ?_
    rintro _ ⟨⟩
    refine succeeds_ok.bind ?_
    rintro _ ⟨⟩
    simp only [hident]
    cases p.effectiveTransfer <;> exact ⟨_, rfl⟩

theorem succeeds_passedParams {p : Parameter} {t : TypeRef} (hp : IsPlain p.name)
    (ht : Abi.classify p.type = .ok t) (hpass : ctx.CanPass t) : Succeeds (passedParams p) := by
  obtain ⟨name, hname⟩ := succeeds_chosenName hp
  obtain ⟨length, hlength⟩ : Succeeds (literalName (Abi.lengthName p.name)) :=
    succeeds_literalName (hp.append (by decide))
  unfold passedParams
  simp only [hname, ht, hlength]
  cases t with
  | string | buffer _ | handle _ | primitive _ => exact ⟨_, rfl⟩
  | qualified q =>
    obtain ⟨ident, hident⟩ := succeeds_typeName named hpass
    -- The two binds resolve the name and then the declared one.
    refine succeeds_ok.bind ?_
    rintro _ ⟨⟩
    refine succeeds_ok.bind ?_
    rintro _ ⟨⟩
    simp only [hident]
    cases p.effectiveTransfer <;> exact ⟨_, rfl⟩

omit named in
theorem succeeds_handover {p : Parameter} {t : TypeRef} (hp : IsPlain p.name)
    (ht : Abi.classify p.type = .ok t) : Succeeds (handover ctx p) := by
  obtain ⟨name, hname⟩ := succeeds_chosenName hp
  obtain ⟨length, hlength⟩ : Succeeds (literalName (Abi.lengthName p.name)) :=
    succeeds_literalName (hp.append (by decide))
  unfold handover
  simp only [hname, ht, hlength]
  cases t with
  | string | buffer _ | handle _ | primitive _ => exact ⟨_, rfl⟩
  | qualified q => cases p.effectiveTransfer <;> exact ⟨_, rfl⟩

theorem succeeds_answer {m : Method} (hm : ctx.Reads m) : Succeeds (answer m) := by
  -- A named error is an enum of the schema, and a named result has been read as a type.
  have herror : ∀ e, m.error = some e → Succeeds (typeName e) := fun e he =>
    succeeds_typeName named (.inl (hm.error e he))
  have hreturns : ∀ ty, m.returnType? = some ty → Succeeds (valueType ty) := by
    intro ty hty
    obtain ⟨r, hr, rfl⟩ := Option.map_eq_some_iff.mp hty
    obtain ⟨t, ht, hreturn⟩ := hm.returns r hr
    exact succeeds_valueType named ht hreturn
  unfold answer
  cases he : m.error with
  | none =>
    cases hty : m.returnType? with
    | none => exact ⟨_, rfl⟩
    | some ty =>
      dsimp only
      rw [succeeds_bind_pure_iff]
      exact hreturns ty hty
  | some e =>
    cases hty : m.returnType? with
    | none =>
      dsimp only
      rw [succeeds_bind_pure_iff]
      exact herror e he
    | some ty =>
      refine (herror e he).bind fun _ _ => ?_
      rw [succeeds_bind_pure_iff]
      exact hreturns ty hty

/-! ### Traits -/

theorem succeeds_traitSignature {m : Method} (hm : ctx.Reads m) (hnames : m.PlainNamed) :
    Succeeds (traitSignature ctx m) := by
  unfold traitSignature
  refine (succeeds_chosenName hnames.name).bind fun name _ => ?_
  have hparams : Succeeds (m.parameters.mapM (borrowedParam ctx)) := by
    rw [succeeds_mapM_iff]
    intro p hp
    obtain ⟨t, ht, hpass⟩ := hm.parameters p hp
    exact succeeds_borrowedParam named (hnames.parameters p hp) ht hpass
  refine hparams.bind fun params _ => ?_
  rw [succeeds_bind_pure_iff]
  exact succeeds_answer named hm

omit named in
theorem name_of_traitSignature {m : Method} {s : Signature} (h : traitSignature ctx m = .ok s) :
    chosenName m.name = .ok s.name := by
  simp only [traitSignature, bind_eq_ok_iff, pure_eq_ok_iff] at h
  obtain ⟨name, hname, _, -, _, -, rfl⟩ := h
  exact hname

end Methods

section Skeleton

variable {ctx : Context} (valid : Validate.Conforms ctx.api (some ctx.types))
  (snake : ctx.api.SnakeNamed) (named : ctx.types.WellNamed)

include snake

theorem succeeds_traitName {i : Interface} (hi : i ∈ ctx.api.interfaces) :
    Succeeds (traitName i) :=
  succeeds_chosenName (isPlain_pascalCase (snake.interfaces i hi).name)

/-- The methods of a trait define something. -/
theorem ne_underscore_of_trait {i : Interface} (hi : i ∈ ctx.api.interfaces) {t : Trait}
    (ht : Trait.ofInterface ctx i = .ok t) : ∀ p ∈ t.methods, p.2.name ≠ "_" := by
  simp only [Trait.ofInterface, bind_eq_ok_iff, pure_eq_ok_iff, mapM_eq_ok_iff] at ht
  obtain ⟨name, -, methods, hmethods, rfl⟩ := ht
  intro p hp
  obtain ⟨op, hop, sig, hsig, rfl⟩ := exists_mem_of_forall₂ hmethods.flip hp
  rw [Ne, eq_underscore_iff_of_chosenName (name_of_traitSignature hsig)]
  exact (plainNamed_of_mem_operations (snake.interfaces i hi) hop).definable

theorem succeeds_modules : Succeeds (Modules.ofApi ctx.apiName) := by
  -- The name of the description is plain, and it stays so with an ending.
  have hplain : ∀ ending, IsPlain ending → Succeeds (literalName (ctx.apiName ++ ending)) :=
    fun ending h => succeeds_literalName ((isPlain_of_isSnakeIdentifier snake.name).append h)
  unfold Modules.ofApi
  refine (hplain "_types" (by decide)).bind fun _ _ => ?_
  refine (hplain "_trait" (by decide)).bind fun _ _ => ?_
  refine (hplain "_ffi" (by decide)).bind fun _ _ => ?_
  rw [succeeds_bind_pure_iff]
  exact hplain "_impl" (by decide)

include valid named

/-- **The traits are always written.** -/
theorem succeeds_traits : Succeeds (traits ctx) := by
  have htraits : Succeeds (ctx.api.interfaces.mapM (Trait.ofInterface ctx)) := by
    rw [succeeds_mapM_iff]
    intro i hi
    refine (succeeds_traitName snake hi).bind fun _ _ => ?_
    rw [succeeds_bind_pure_iff, succeeds_mapM_iff]
    intro op hop
    rw [succeeds_bind_pure_iff]
    exact succeeds_traitSignature named (ctx.reads_of_interface valid hi hop)
      (plainNamed_of_mem_operations (snake.interfaces i hi) hop)
  unfold traits
  refine htraits.bind fun ts hts => ?_
  -- the check of what is defined: every method of a trait has a name of its own
  rw [succeeds_bind_pure_iff, succeeds_checkDefined_iff]
  intro name hname
  obtain ⟨t, ht, hname⟩ := List.mem_flatMap.mp hname
  obtain ⟨p, hp, rfl⟩ := List.mem_map.mp hname
  obtain ⟨i, hi, hmade⟩ := exists_mem_of_forall₂ (mapM_eq_ok_iff.mp hts).flip ht
  exact ne_underscore_of_trait snake hi hmade p hp

omit valid named in
/-- The symbol of an operation is made of plain names. -/
theorem isPlain_symbol {i : Interface} (hi : i ∈ ctx.api.interfaces) {op : Operation}
    (hop : op ∈ i.operations) : IsPlain (op.symbol ctx.apiName) := by
  have hinterface : IsPlain op.interface.name := by
    rw [interface_of_mem_operations hop]
    exact isPlain_of_isSnakeIdentifier (snake.interfaces i hi).name
  have hbar : IsPlain "_" := by decide
  have happ := isPlain_of_isSnakeIdentifier snake.name
  exact (((happ.append hbar).append hinterface).append hbar).append
    (plainNamed_of_mem_operations (snake.interfaces i hi) hop).name

omit valid snake in
theorem succeeds_passed {m : Method} (hm : ctx.Reads m) (hnames : m.PlainNamed) :
    Succeeds (m.parameters.mapM fun p => do return (← passedParams p, ← handover ctx p)) := by
  rw [succeeds_mapM_iff]
  intro p hp
  obtain ⟨t, ht, hpass⟩ := hm.parameters p hp
  refine (succeeds_passedParams named (hnames.parameters p hp) ht hpass).bind fun _ _ => ?_
  rw [succeeds_bind_pure_iff]
  exact succeeds_handover (hnames.parameters p hp) ht

theorem succeeds_export {i : Interface} (hi : i ∈ ctx.api.interfaces) {op : Operation}
    (hop : op ∈ i.operations) : Succeeds (Export.ofOperation ctx op) := by
  have hm := ctx.reads_of_interface valid hi hop
  have hnames := plainNamed_of_mem_operations (snake.interfaces i hi) hop
  obtain ⟨name, hname⟩ := succeeds_literalName (isPlain_symbol snake hi hop)
  obtain ⟨trait, htrait⟩ : Succeeds (traitName op.interface) := by
    rw [interface_of_mem_operations hop]
    exact succeeds_traitName snake hi
  obtain ⟨method, hmethod⟩ := succeeds_chosenName hnames.name
  obtain ⟨passed, hpassed⟩ := succeeds_passed named hm hnames
  unfold Export.ofOperation
  simp only [hname, htrait, hmethod, hpassed]
  -- With nothing returned there is no value to convert.
  cases hty : op.method.returnType? with
  | none => cases op.method.isFallible <;> exact ⟨_, rfl⟩
  | some ty =>
    obtain ⟨r, hr, rfl⟩ := Option.map_eq_some_iff.mp hty
    obtain ⟨t, ht, hreturn⟩ := hm.returns r hr
    obtain ⟨value, hvalue⟩ := succeeds_valueType named ht hreturn
    cases op.method.isFallible with
    | true => simp only [hvalue]; exact ⟨_, rfl⟩
    | false => simp only [hvalue]; exact ⟨_, rfl⟩

/-- **The exported functions are always written.** -/
theorem succeeds_exports : Succeeds (exports ctx) := by
  unfold exports
  rw [succeeds_mapM_iff]
  intro op hop
  obtain ⟨i, hi, hop⟩ := List.mem_flatMap.mp hop
  exact succeeds_export valid snake named hi hop

/-- **The Rust skeleton is emitted exactly when the names of the schema can be written.** -/
theorem succeeds_emit_iff : Succeeds (Rust.emit ctx) ↔ CanExpress ctx.types := by
  unfold Rust.emit
  refine succeeds_bind_iff_right (succeeds_modules snake) fun modules _ => ?_
  refine succeeds_bind_iff_right (succeeds_traits valid snake named) fun ts _ => ?_
  refine succeeds_bind_iff_right (succeeds_exports valid snake named) fun es _ => ?_
  by_cases hempty : ctx.types.entries.isEmpty = true
  · -- without types there is nothing to define, and nothing to be named
    have hnone : ∀ n, ctx.types.get? n = none := by
      intro n
      rw [Keyed.get?, List.isEmpty_iff.mp hempty]
      rfl
    refine iff_of_true ?_ ⟨fun n d hd => ?_, fun n d hd => ?_⟩
    · simp only [if_pos hempty]
      exact ⟨_, rfl⟩
    · rw [hnone n] at hd
      cases hd
    · rw [hnone n] at hd
      cases hd
  · simp only [if_neg hempty, pure_bind]
    rw [succeeds_bind_pure_iff]
    exact succeeds_definitions_iff named

end Skeleton

end Rust

end Bindery
