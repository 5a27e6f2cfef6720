import Bindery.Emit.Header
import Bindery.Proofs.Layout.Records
import Bindery.Proofs.Pages

/-!
# Three descriptions of a record

A record is described three times: the header declares its members, the Rust definitions
declare its fields, and the layout places its slots. The three are computed apart, and a
library that is built from two of them works only if they describe the same memory.

They are compared as they are printed: the lines of the header, the text of the file of the
Rust types, and the slots.

* `SameType` — one type in the three descriptions: how C spells it, how Rust does, and the
  kind of slot that a value of the type takes;
* `SameField` — what one field becomes, a vector as a pointer that is followed by its
  count;
* `SameRecord` — the three descriptions of a record, name by name and type by type;
* `PrintsRecord` — that these are the members in the header and the fields in the Rust file.

The descriptions agree for every record with a layout, as long as the schema is closed
(`declarations_agree`). Without that they do not: a field whose type is not known is
taken by value in the header and by reference in the layout.
-/

namespace Bindery

/-! ### Names and definitions of Rust -/

namespace Rust

/-- **The identifier of a name**, where it has one: a keyword is written raw, and the words
that cannot be raw get an underscore. -/
def escaped (name : String) : String :=
  if name ∈ pathWords then name ++ "_" else if name ∈ keywords then rawMark ++ name else name

theorem eq_of_literalName {name ident : String} (h : literalName name = .ok ident) :
    ident = name := by
  unfold literalName at h
  extract_lets isName at h
  split at h
  · exact (Except.ok.inj h).symm
  · cases h

theorem eq_escaped_of_chosenName {name ident : String} (h : chosenName name = .ok ident) :
    ident = escaped name := by
  unfold chosenName at h
  unfold escaped
  simp only [List.contains_iff_mem] at h
  split at h
  · next hpath => rw [if_pos hpath, Except.ok.inj h]
  · next hpath =>
    rw [if_neg hpath]
    split at h
    · next hkey => rw [if_pos hkey, Except.ok.inj h]
    · next hkey => rw [if_neg hkey, eq_of_literalName h]

/-- The name of a count is no keyword. -/
theorem escaped_countName (vector : String) :
    escaped (Abi.countName vector) = Abi.countName vector := by
  -- no word of the tables ends like a count
  have hsuffix : ∀ word ∈ pathWords ++ keywords, Text.dropSuffix? "_count" word = none := by decide
  have hword : Abi.countName vector ∉ pathWords ++ keywords := by
    intro hmem
    have hsome : Text.dropSuffix? "_count" (Abi.countName vector) = some vector :=
      Text.dropSuffix?_eq_some_iff.mpr rfl
    rw [hsuffix _ hmem] at hsome
    cases hsome
  rw [List.mem_append, not_or] at hword
  unfold escaped
  rw [if_neg hword.1, if_neg hword.2]

/-- A field that is no vector is declared once. -/
theorem fieldBindings_eq_singleton {f : Field} {bs : List Binding} (h : fieldBindings f = .ok bs)
    (hvector : f.type.isVector = false) :
    ∃ ty, fieldType f.type = .ok ty ∧ bs = [⟨escaped f.name, ty⟩] := by
  unfold fieldBindings at h
  simp only [hvector, bind_eq_ok_iff, pure_eq_ok_iff, Bool.false_eq_true, if_false] at h
  obtain ⟨ident, hident, ty, hty, _, rfl, rfl⟩ := h
  rw [← eq_escaped_of_chosenName hident]
  exact ⟨ty, hty, rfl⟩

/-- A vector is declared with its count. -/
theorem fieldBindings_eq_pair {f : Field} {bs : List Binding} (h : fieldBindings f = .ok bs)
    (hvector : f.type.isVector = true) :
    ∃ ty, fieldType f.type = .ok ty ∧
      bs = [⟨escaped f.name, ty⟩, ⟨Abi.countName f.name, .primitive .uint32⟩] := by
  unfold fieldBindings at h
  simp only [hvector, bind_eq_ok_iff, pure_eq_ok_iff, if_true] at h
  obtain ⟨ident, hident, ty, hty, count, hcount, _, rfl, rfl⟩ := h
  rw [← eq_escaped_of_chosenName hident, ← eq_of_literalName hcount]
  exact ⟨ty, hty, rfl⟩

variable {types : Schema} {ds : List Definition} {n : String} {d : TypeDef}

/-- The definitions are made one by one. -/
theorem exists_of_definitions (h : definitions types = .ok ds) :
    ∃ enums records, ds = enums ++ records ∧
      List.Forall₂ (fun e x => Definition.ofEnum e.1 e.2 = .ok x) (types.ofKind .enum) enums ∧
      List.Forall₂ (fun e x => Definition.ofRecord e.1 e.2 = .ok x) types.records records := by
  unfold definitions at h
  simp only [bind_eq_ok_iff, mapM_eq_ok_iff, pure_eq_ok_iff] at h
  obtain ⟨enums, henums, records, hrecords, -, -, rfl⟩ := h
  exact ⟨enums, records, rfl, henums, hrecords⟩

/-- Every enumeration of the schema is defined. -/
theorem exists_enumeration (h : definitions types = .ok ds) (hn : types.isEnum n = true) :
    ∃ ident values, typeName n = .ok ident ∧ .enumeration ident values ∈ ds := by
  obtain ⟨enums, records, rfl, henums, -⟩ := exists_of_definitions h
  obtain ⟨e, he, hkind⟩ := Schema.isEnum_iff.mp hn
  have hmem : (n, e) ∈ types.ofKind .enum :=
    List.mem_filter.mpr ⟨Keyed.get?_eq_some_iff.mp he, hkind⟩
  obtain ⟨x, hx, hdef⟩ := exists_mem_of_forall₂ henums hmem
  simp only [Definition.ofEnum, bind_eq_ok_iff, pure_eq_ok_iff] at hdef
  obtain ⟨ident, hident, values, -, rfl⟩ := hdef
  exact ⟨ident, values, hident, List.mem_append_left _ hx⟩

/-- Every record of the schema is defined. -/
theorem exists_record (h : definitions types = .ok ds) (hn : types.get? n = some d)
    (hd : d.isRecord = true) :
    ∃ ident groups, typeName n = .ok ident ∧
      List.Forall₂ (fun f bs => fieldBindings f = .ok bs) d.fields groups ∧
      .record ident (d.kind = .struct) groups.flatten ∈ ds := by
  obtain ⟨enums, records, rfl, -, hrecords⟩ := exists_of_definitions h
  have hmem : (n, d) ∈ types.records := Schema.mem_records_iff.mpr ⟨hn, hd⟩
  obtain ⟨x, hx, hdef⟩ := exists_mem_of_forall₂ hrecords hmem
  simp only [Definition.ofRecord, bind_eq_ok_iff, pure_eq_ok_iff, mapM_eq_ok_iff] at hdef
  obtain ⟨ident, hident, groups, hgroups, rfl⟩ := hdef
  exact ⟨ident, groups, hident, hgroups, List.mem_append_right _ hx⟩

/-! ### The file of the types -/

/-- The type of a field is spelled without a place where a line may end. -/
theorem exists_spelled_of_fieldType {t : FieldType} {ty : Ty} (h : fieldType t = .ok ty) :
    ∃ s, ty.Spelled s := by
  -- A type is spelled as deeply as its vectors are nested.
  induction t generalizing ty with
  | primitive p =>
    obtain rfl := Except.ok.inj h
    exact ⟨_, .primitive p⟩
  | string =>
    obtain rfl := Except.ok.inj h
    exact ⟨_, .toConst .cChar⟩
  | vector element ih =>
    obtain ⟨inner, hinner, h⟩ := bind_eq_ok_iff.mp h
    obtain rfl := pure_eq_ok_iff.mp h
    obtain ⟨s, hs⟩ := ih hinner
    exact ⟨_, .toConst hs⟩
  | named name =>
    obtain ⟨ident, -, h⟩ := bind_eq_ok_iff.mp h
    obtain rfl := pure_eq_ok_iff.mp h
    exact ⟨ident, .schema ident⟩

theorem exists_prints_of_fieldBindings {f : Field} {bs : List Binding}
    (h : fieldBindings f = .ok bs) : ∃ fields, List.Forall₂ Binding.Prints bs fields := by
  -- A vector has a binding for its data and one for its count.
  cases hvector : f.type.isVector with
  | false =>
    obtain ⟨ty, hty, rfl⟩ := fieldBindings_eq_singleton h hvector
    obtain ⟨s, hs⟩ := exists_spelled_of_fieldType hty
    exact ⟨[(escaped f.name, s)], .cons ⟨rfl, hs⟩ .nil⟩
  | true =>
    obtain ⟨ty, hty, rfl⟩ := fieldBindings_eq_pair h hvector
    obtain ⟨s, hs⟩ := exists_spelled_of_fieldType hty
    exact ⟨[(escaped f.name, s), (Abi.countName f.name, "u32")],
      .cons ⟨rfl, hs⟩ (.cons ⟨rfl, .primitive .uint32⟩ .nil)⟩

theorem exists_prints_of_groups {declared : List Field} {groups : List (List Binding)}
    (h : List.Forall₂ (fun f bs => fieldBindings f = .ok bs) declared groups) :
    ∃ fields, List.Forall₂ Binding.Prints groups.flatten fields := by
  induction h with
  | nil => exact ⟨[], .nil⟩
  | cons hbs _ ih =>
    obtain ⟨fields, hfields⟩ := exists_prints_of_fieldBindings hbs
    obtain ⟨others, hothers⟩ := ih
    exact ⟨fields ++ others, List.rel_append hfields hothers⟩

/-- Every definition of a schema can be printed. -/
theorem exists_prints_of_definitions (h : definitions types = .ok ds) :
    ∀ d ∈ ds, ∃ printed, d.Prints printed := by
  obtain ⟨enums, records, rfl, henums, hrecords⟩ := exists_of_definitions h
  intro x hx
  -- Enums print their values and records their fields; each printing follows the way it was made.
  rcases List.mem_append.mp hx with hx | hx
  · obtain ⟨e, -, he⟩ := exists_mem_of_forall₂ henums.flip hx
    obtain ⟨ident, -, he⟩ := bind_eq_ok_iff.mp he
    obtain ⟨values, -, he⟩ := bind_eq_ok_iff.mp he
    obtain rfl := pure_eq_ok_iff.mp he
    exact ⟨_, rfl⟩
  · obtain ⟨e, -, he⟩ := exists_mem_of_forall₂ hrecords.flip hx
    obtain ⟨ident, -, he⟩ := bind_eq_ok_iff.mp he
    obtain ⟨groups, hgroups, he⟩ := bind_eq_ok_iff.mp he
    obtain rfl := pure_eq_ok_iff.mp he
    obtain ⟨fields, hfields⟩ := exists_prints_of_groups (mapM_eq_ok_iff.mp hgroups)
    exact ⟨_, fields, hfields, rfl⟩

/-- **The file of the types holds each definition**, on lines of its own. -/
theorem exists_holds_of_mem (h : definitions types = .ok ds) {d : Definition} (hd : d ∈ ds) :
    ∃ printed, d.Prints printed ∧ Text.Holds (typeFile ds) (printed ++ "\n") := by
  obtain ⟨written, hwritten, hfile⟩ := exists_typeFile (exists_prints_of_definitions h)
  obtain ⟨printed, hmem, hprinted⟩ := exists_mem_of_forall₂ hwritten hd
  refine ⟨printed, hprinted, ?_⟩
  rw [hfile]
  exact Text.holds_join (List.mem_map_of_mem (List.mem_append_right _ hmem))

/-- The fields of a record stand in the file as they are printed. -/
theorem holds_struct (h : definitions types = .ok ds) {ident : String} {plain : Bool}
    {bindings : List Binding} (hd : .record ident plain bindings ∈ ds)
    {fields : List (String × String)} (hfields : List.Forall₂ Binding.Prints bindings fields) :
    Text.Holds (typeFile ds) (structText ident plain fields ++ "\n") := by
  obtain ⟨_, ⟨fields', hfields', rfl⟩, hholds⟩ := exists_holds_of_mem h hd
  -- there is one way to print them
  have hsame : fields' = fields := by
    clear hholds hd
    induction hfields generalizing fields' with
    | nil =>
      cases hfields'
      rfl
    | cons hprints _ ih =>
      cases hfields' with
      | cons hprints' hrest =>
        rw [Prod.ext (hprints'.1.trans hprints.1.symm) (hprints'.2.eq hprints.2), ih _ hrest]
  rw [← hsame]
  exact hholds

end Rust

namespace Abi

variable {types : Schema} {ds : List Rust.Definition}

/-! ### One type, three times -/

/-- **One type in the three descriptions**: how C and Rust spell it, and the kind of slot that
holds a value of it. The Rust types stand in a file. -/
inductive SameType (types : Schema) (file : String) : String → String → SlotKind → Prop where
  | primitive (p : Primitive) : SameType types file p.row.c p.row.rust (.primitive p)
  | text : SameType types file "const char*" "*const c_char" .string
  /-- The elements of a vector have a type of their own, which may be a vector again. -/
  | vector {c rust : String} {kind : SlotKind} (element : SameType types file c rust kind) :
      SameType types file ("const " ++ c ++ "*") ("*const " ++ rust) .pointer
  /-- An enumeration is defined in the file, and as wide as an `int` of C. -/
  | enum {n ident : String} {values : List (String × Int)} (enum : types.isEnum n = true)
      (name : Rust.typeName n = .ok ident)
      (defined : Text.Holds file (Rust.enumText ident values ++ "\n")) :
      SameType types file (Naming.cTypeName n) ident (.enum .int32)
  /-- A record is defined in the file, with the layout of C. -/
  | record {n ident : String} {plain : Bool} {fields : List (String × String)}
      (record : types.isRecord n = true) (name : Rust.typeName n = .ok ident)
      (defined : Text.Holds file (Rust.structText ident plain fields ++ "\n")) :
      SameType types file (Naming.cTypeName n) ident (.record n)

/-- The kind of slot that a value of a type takes. -/
def slotKindOf (types : Schema) : FieldType → SlotKind
  | .primitive p => .primitive p
  | .string => .string
  | .vector _ => .pointer
  | .named n => if types.isEnum n then .enum .int32 else .record n

/-- **A type that resolves is the same in C and in Rust**, whatever vectors are around it. -/
theorem sameType_of_resolves (hds : Rust.definitions types = .ok ds) {t : FieldType}
    (ht : types.Resolves t) {ty : Rust.Ty} (hty : Rust.fieldType t = .ok ty) :
    ∃ text, ty.Spelled text ∧
      SameType types (Rust.typeFile ds) (fieldC t) text (slotKindOf types t) := by
  induction t generalizing ty with
  | primitive p =>
    obtain rfl := Except.ok.inj hty
    exact ⟨_, .primitive p, .primitive p⟩
  | string =>
    obtain rfl := Except.ok.inj hty
    exact ⟨_, .toConst .cChar, .text⟩
  | vector element ih =>
    simp only [Rust.fieldType, bind_eq_ok_iff, pure_eq_ok_iff] at hty
    obtain ⟨inner, hinner, rfl⟩ := hty
    obtain ⟨text, hspelled, hsame⟩ := ih ht hinner
    exact ⟨_, .toConst hspelled, .vector hsame⟩
  | named n =>
    simp only [Rust.fieldType, bind_eq_ok_iff, pure_eq_ok_iff] at hty
    obtain ⟨ident, hident, rfl⟩ := hty
    refine ⟨ident, .schema ident, ?_⟩
    cases henum : types.isEnum n with
    | true =>
      obtain ⟨ident', values, hident', hmem⟩ := Rust.exists_enumeration hds henum
      obtain rfl : ident = ident' := Except.ok.inj (hident.symm.trans hident')
      obtain ⟨_, rfl, hholds⟩ := Rust.exists_holds_of_mem hds hmem
      rw [slotKindOf, if_pos henum]
      exact .enum henum hident hholds
    | false =>
      -- a name that resolves to no enumeration resolves to a record
      have hrecord : types.isRecord n = true := ht.resolve_left (by rw [henum]; decide)
      obtain ⟨d, hd, hkind⟩ := Schema.isRecord_iff.mp hrecord
      obtain ⟨ident', groups, hident', -, hmem⟩ := Rust.exists_record hds hd hkind
      obtain rfl : ident = ident' := Except.ok.inj (hident.symm.trans hident')
      obtain ⟨_, ⟨fields, -, rfl⟩, hholds⟩ := Rust.exists_holds_of_mem hds hmem
      rw [slotKindOf, if_neg (by rw [henum]; decide)]
      exact .record hrecord hident hholds

/-! ### One field, three times -/

/-- **What a field becomes**: one member with one slot, or for a vector a pointer that is
followed by its count. -/
inductive SameField (types : Schema) (file : String) :
    List (String × String) → List (String × String) → List Slot → Prop where
  | single {c rust : String} {s : Slot} (type : SameType types file c rust s.kind)
      (value : s.kind ≠ .pointer) :
      SameField types file [(c, s.name)] [(Rust.escaped s.name, rust)] [s]
  | vector {c rust : String} {s s' : Slot} (type : SameType types file c rust s.kind)
      (pointer : s.kind = .pointer) (count : s'.kind = .count)
      (name : s'.name = s.name ++ "_count") :
      SameField types file [(c, s.name), ("uint32_t", s'.name)]
        [(Rust.escaped s.name, rust), (s'.name, "u32")] [s, s']

/-- The parts of a field: one of the kind of its type, or for a vector two. -/
theorem parts_of_takes {inner : String → Layout → Prop} {f : Field} {parts : List Part}
    (ht : types.Resolves f.type) (h : Takes types inner f parts) :
    (f.type.isVector = false ∧ slotKindOf types f.type ≠ .pointer ∧
      ∃ p, parts = [p] ∧ p.name = f.name ∧ p.kind = slotKindOf types f.type) ∨
    (f.type.isVector = true ∧ slotKindOf types f.type = .pointer ∧
      ∃ p q, parts = [p, q] ∧ p.name = f.name ∧ p.kind = .pointer ∧
        q.name = countName f.name ∧ q.kind = .count) := by
  cases h with
  | primitive p type =>
    rw [type]
    exact .inl ⟨rfl, by simp [slotKindOf], _, rfl, rfl, rfl⟩
  | string type =>
    rw [type]
    exact .inl ⟨rfl, by simp [slotKindOf], _, rfl, rfl, rfl⟩
  | vector element type =>
    rw [type]
    exact .inr ⟨rfl, rfl, _, _, rfl, rfl, rfl, rfl, rfl⟩
  | enum n type enum =>
    rw [type, slotKindOf, if_pos enum]
    exact .inl ⟨rfl, by simp, _, rfl, rfl, rfl⟩
  | record n l type record layout =>
    have henum : ¬ types.isEnum n = true := by
      rw [Schema.isEnum_eq_false_of_isRecord record]
      decide
    rw [type, slotKindOf, if_neg henum]
    exact .inl ⟨rfl, by simp, _, rfl, rfl, rfl⟩
  | reference n type noEnum noRecord =>
    -- the only case in which the header and the layout would differ
    rw [type] at ht
    rcases ht with henum | hrecord
    · exact absurd (henum.symm.trans noEnum) (by decide)
    · exact absurd (hrecord.symm.trans noRecord) (by decide)

/-- **The three descriptions of a field agree.** -/
theorem sameField_of_takes (hds : Rust.definitions types = .ok ds) {f : Field}
    (ht : types.Resolves f.type) {bs : List Rust.Binding} (hbs : Rust.fieldBindings f = .ok bs)
    {chunk : List Slot} (h : Takes types (LaidOut types) f (chunk.map (·.toPart))) :
    ∃ fields, List.Forall₂ Rust.Binding.Prints bs fields ∧
      SameField types (Rust.typeFile ds) (fieldMembers f) fields chunk := by
  -- One part is one member on both sides; a vector is a pointer with its count behind it.
  rcases parts_of_takes ht h with ⟨hvector, hvalue, p, hp, hname, hkind⟩ |
    ⟨hvector, hpointer, p, q, hpq, hname, hkind, hname', hkind'⟩
  · obtain ⟨s, rfl, rfl⟩ := List.map_eq_singleton_iff.mp hp
    obtain ⟨ty, hty, rfl⟩ := Rust.fieldBindings_eq_singleton hbs hvector
    obtain ⟨text, hspelled, hsame⟩ := sameType_of_resolves hds ht hty
    rw [← hkind] at hsame hvalue
    rw [fieldMembers, hvector, ← hname]
    exact ⟨_, .cons ⟨rfl, hspelled⟩ .nil, .single hsame hvalue⟩
  · obtain ⟨s, rest, rfl, rfl, hrest⟩ := List.map_eq_cons_iff.mp hpq
    obtain ⟨s', rfl, rfl⟩ := List.map_eq_singleton_iff.mp hrest
    obtain ⟨ty, hty, rfl⟩ := Rust.fieldBindings_eq_pair hbs hvector
    obtain ⟨text, hspelled, hsame⟩ := sameType_of_resolves hds ht hty
    rw [hpointer, ← hkind] at hsame
    rw [fieldMembers, hvector, if_pos rfl, ← hname', ← hname]
    exact ⟨_, .cons ⟨rfl, hspelled⟩ (.cons ⟨rfl, .primitive .uint32⟩ .nil),
      .vector hsame hkind hkind' (by rw [hname', hname, countName])⟩

/-! ### Records -/

/-- **What the fields of a record become**, one after the other. -/
inductive SameMembers (types : Schema) (file : String) :
    List (String × String) → List (String × String) → List Slot → Prop where
  | nil : SameMembers types file [] [] []
  | append {members members' fields fields' : List (String × String)} {slots slots' : List Slot}
      (field : SameField types file members fields slots)
      (others : SameMembers types file members' fields' slots') :
      SameMembers types file (members ++ members') (fields ++ fields') (slots ++ slots')

/-- **The three descriptions of a record**: its members in C, its fields in Rust and its
slots in memory. -/
structure SameRecord (types : Schema) (file : String) (members fields : List (String × String))
    (slots : List Slot) : Prop where
  /-- Members and slots have the same names. -/
  slotNames : slots.map (·.name) = members.map (·.2)
  /-- Fields have the same names, up to the spelling of keywords. -/
  fieldNames : fields.map (·.1) = members.map fun m => Rust.escaped m.2
  /-- Members, fields and slots have the same types. -/
  types : SameMembers types file members fields slots
  /-- An enumeration takes four bytes. -/
  enumSize : ∀ s ∈ slots, ∀ p, s.kind = .enum p → s.size = 4

section Names

variable {file : String} {members fields : List (String × String)} {slots : List Slot}

theorem SameField.names (h : SameField types file members fields slots) :
    slots.map (·.name) = members.map (·.2) ∧
      fields.map (·.1) = members.map fun m => Rust.escaped m.2 := by
  cases h with
  | single type value => exact ⟨rfl, rfl⟩
  | vector type pointer count name =>
    refine ⟨rfl, ?_⟩
    have hcount := Rust.escaped_countName
    simp only [countName] at hcount
    simp only [List.map_cons, List.map_nil, name, hcount]

theorem SameMembers.names (h : SameMembers types file members fields slots) :
    slots.map (·.name) = members.map (·.2) ∧
      fields.map (·.1) = members.map fun m => Rust.escaped m.2 := by
  induction h with
  | nil => exact ⟨rfl, rfl⟩
  | append field _ ih =>
    obtain ⟨hslots, hfields⟩ := field.names
    simp only [List.map_append, hslots, hfields, ih.1, ih.2, and_self]

end Names

/-- The fields of a record, one after the other. -/
theorem sameMembers_of_fields (hds : Rust.definitions types = .ok ds) {declared : List Field}
    (ht : ∀ f ∈ declared, types.Resolves f.type) {groups : List (List Rust.Binding)}
    (hgroups : List.Forall₂ (fun f bs => Rust.fieldBindings f = .ok bs) declared groups)
    {chunks : List (List Slot)} (hchunks : FieldSlots types declared chunks) :
    ∃ fields, List.Forall₂ Rust.Binding.Prints groups.flatten fields ∧
      SameMembers types (Rust.typeFile ds) (declared.flatMap fieldMembers) fields
        chunks.flatten := by
  unfold FieldSlots at hchunks
  -- over the fields, with the bindings and the slots of each walked along
  induction hgroups generalizing chunks with
  | nil =>
    cases hchunks
    exact ⟨[], .nil, .nil⟩
  | cons hbs _ ih =>
    cases hchunks with
    | cons htakes hrest =>
      obtain ⟨hfield, hothers⟩ := List.forall_mem_cons.mp ht
      obtain ⟨fields, hprints, hsame⟩ := sameField_of_takes hds hfield hbs htakes
      obtain ⟨fields', hprints', hsame'⟩ := ih hothers hrest
      exact ⟨fields ++ fields', List.rel_append hprints hprints', .append hsame hsame'⟩

/-- The part of an enumeration takes four bytes. -/
theorem Takes.size_of_enum {inner : String → Layout → Prop} {f : Field} {parts : List Part}
    (h : Takes types inner f parts) {part : Part} (hpart : part ∈ parts) {p : Primitive}
    (hkind : part.kind = .enum p) : part.size = 4 := by
  cases h with
  | enum n type enum => rw [List.mem_singleton.mp hpart]
  | vector element type => rcases List.mem_pair.mp hpart with rfl | rfl <;> cases hkind
  | primitive | string | record | reference =>
    rw [List.mem_singleton.mp hpart] at hkind
    cases hkind

/-! ### In print -/

/-- **A record of C in print.** -/
def structLines (cName : String) (members : List (String × String)) : List Line :=
  [{ text := "typedef struct " ++ cName ++ " \x7b" }]
    ++ members.map (fun m => { depth := 1, text := m.1 ++ " " ++ m.2 ++ ";" })
    ++ [{ text := "\x7d " ++ cName ++ ";" }]

/-- **Where a record is described**: its members stand in the header, and its fields in the file of
the Rust types. -/
structure PrintsRecord (types : Schema) (ds : List Rust.Definition) (name ident : String)
    (plain : Bool) (members fields : List (String × String)) : Prop where
  header : ∀ ctx files, ctx.types = types → Header.emit ctx = .ok files →
    ∃ code, files = [ctx.generatedFile (ctx.apiName ++ ".h") Code.fourBlanks code] ∧
      structLines (Naming.cTypeName name) members <:+: code
  rust : Text.Holds (Rust.typeFile ds) (Rust.structText ident plain fields ++ "\n")
  rustFile : ∀ ctx files, ctx.types = types → Rust.emit ctx = .ok files →
    { path := ctx.apiName ++ "_types.rs"
      content := ctx.generatedBanner .slash ++ Rust.typeFile ds : Artifact } ∈ files

/-- What the header declares for a record. -/
theorem structLines_isInfix {name : String} {d : TypeDef} (hd : types.get? name = some d)
    (hrecord : d.isRecord = true) :
    structLines (Naming.cTypeName name) (d.fields.flatMap fieldMembers) <:+:
      schemaTypedefs types := by
  have hmem : (name, d) ∈ typedefOrder types :=
    List.mem_append_right _ (Schema.mem_records_iff.mpr ⟨hd, hrecord⟩)
  have hlines : typedefLines name d =
      structLines (Naming.cTypeName name) (d.fields.flatMap fieldMembers) ++ [Line.blank] := by
    have henum : d.isEnum = false := by
      cases hkind : d.kind <;> simp_all [TypeDef.isEnum, TypeDef.isRecord]
    -- The body of a struct is one line for each member.
    have hbody : Code.indent ((d.fields.flatMap fieldDeclarations).map fun decl => (decl ++ ";" : String)) =
        (d.fields.flatMap fieldMembers).map fun m =>
          { depth := 1, text := m.1 ++ " " ++ m.2 ++ ";" } := by
      rw [Code.indent, List.map_map, List.map_flatMap, List.map_flatMap]
      simp only [fieldDeclarations, List.map_map]
      rfl
    rw [typedefLines, henum, if_neg Bool.false_ne_true, structLines, Code.enclosed, hbody]
    rfl
  have hinfix : typedefLines name d <:+: schemaTypedefs types := by
    rw [schemaTypedefs, List.flatMap_def]
    exact List.infix_of_mem_flatten (List.mem_map.mpr ⟨_, hmem, rfl⟩)
  rw [hlines] at hinfix
  exact (List.prefix_append _ _).isInfix.trans hinfix

/-- The header holds the definitions of all types. -/
theorem schemaTypedefs_isInfix {ctx : Context} {code : List Line}
    (h : Header.header ctx = .ok code) : schemaTypedefs ctx.types <:+: code := by
  obtain ⟨parts, -, h⟩ := bind_eq_ok_iff.mp h
  rw [← pure_eq_ok_iff.mp h]
  refine List.IsInfix.trans ?_ (List.prefix_append _ _).isInfix
  refine List.IsInfix.trans ?_ (List.prefix_append _ _).isInfix
  refine List.IsInfix.trans ?_ (List.prefix_append _ _).isInfix
  exact (List.suffix_append _ _).isInfix

/-- The file of the Rust types is among the files of the skeleton. -/
theorem typeFile_mem {ctx : Context} {files : List Artifact}
    (hds : Rust.definitions ctx.types = .ok ds) (hne : ctx.types.entries ≠ [])
    (h : Rust.emit ctx = .ok files) :
    { path := ctx.apiName ++ "_types.rs"
      content := ctx.generatedBanner .slash ++ Rust.typeFile ds : Artifact } ∈ files := by
  obtain ⟨modules, -, h⟩ := bind_eq_ok_iff.mp h
  obtain ⟨ts, -, h⟩ := bind_eq_ok_iff.mp h
  obtain ⟨es, -, h⟩ := bind_eq_ok_iff.mp h
  have hsome : ¬ ctx.types.entries.isEmpty = true := by
    rw [List.isEmpty_iff]
    exact hne
  simp only [if_neg hsome, hds] at h
  obtain rfl := pure_eq_ok_iff.mp h
  exact List.mem_append_left _ (List.mem_append_right _ List.mem_cons_self)

/-- **The three descriptions of a record agree.** In a closed schema, a record with a layout
is defined in Rust with the representation of C, and the members that the header declares,
the fields of that definition and the slots of the layout are the same. -/
theorem declarations_agree {name : String} {l : Layout} (closed : types.Closed)
    (layout : layout types name = .ok l) (definitions : Rust.definitions types = .ok ds) :
    ∃ d ident fields, types.get? name = some d ∧ Rust.typeName name = .ok ident ∧
      d.fields.flatMap fieldDeclarations =
        (d.fields.flatMap fieldMembers).map (fun m => m.1 ++ " " ++ m.2) ∧
      PrintsRecord types ds name ident (d.kind = .struct) (d.fields.flatMap fieldMembers) fields ∧
      SameRecord types (Rust.typeFile ds) (d.fields.flatMap fieldMembers) fields l.slots := by
  obtain ⟨d, chunks, hd, hrecord, hslots, hchunks⟩ := exists_fieldSlots layout
  obtain ⟨ident, groups, hident, hgroups, hmem⟩ := Rust.exists_record definitions hd hrecord
  obtain ⟨fields, hfields, hmembers⟩ :=
    sameMembers_of_fields definitions (closed name d hd hrecord) hgroups hchunks
  have hprinted : d.fields.flatMap fieldDeclarations =
      (d.fields.flatMap fieldMembers).map (fun m => m.1 ++ " " ++ m.2) := by
    rw [List.map_flatMap]
    rfl
  -- Enum slots come from the fields of an enum type, which take a word.
  have henum : ∀ s ∈ chunks.flatten, ∀ p, s.kind = .enum p → s.size = 4 := by
    intro s hs p hkind
    obtain ⟨f, -, chunk, hchunk, htakes⟩ := hchunks.exists_takes hs
    exact htakes.size_of_enum (List.mem_map_of_mem hchunk) hkind
  have hprints : PrintsRecord types ds name ident (d.kind = .struct) (d.fields.flatMap fieldMembers)
      fields := by
    refine ⟨fun ctx files htypes hemit => ?_, Rust.holds_struct definitions hmem hfields,
      fun ctx files htypes hemit => ?_⟩
    · obtain ⟨code, hcode, hemit⟩ := bind_eq_ok_iff.mp hemit
      have hinfix := (structLines_isInfix hd hrecord).trans (htypes ▸ schemaTypedefs_isInfix hcode)
      exact ⟨code, (pure_eq_ok_iff.mp hemit).symm, hinfix⟩
    · subst htypes
      exact typeFile_mem definitions (List.ne_nil_of_mem (Keyed.get?_eq_some_iff.mp hd)) hemit
  rw [hslots]
  exact ⟨d, ident, fields, hd, hident, hprinted, hprints, hmembers.names.1, hmembers.names.2, hmembers,
    henum⟩

/-- A schema with every form of field, and fields named by keywords. -/
def boardSchema : Schema :=
  ((Keyed.empty.insert "Ink" { kind := .enum, base := some .uint8 }).insert
    "Dot" { kind := .struct, fields := [⟨"type", .primitive .int16⟩,
      ⟨"on", .primitive .bool⟩] }).insert
    "Board" { kind := .table, fields := [⟨"label", .string⟩, ⟨"ink", .named "Ink"⟩,
      ⟨"self", .named "Dot"⟩, ⟨"rows", .vector (.vector (.named "Dot"))⟩] }

theorem declarations_agree_boardSchema :
    boardSchema.Closed ∧ ∃ l ds, layout boardSchema "Board" = .ok l ∧
      Rust.definitions boardSchema = .ok ds ∧
      ∃ d ident fields, boardSchema.get? "Board" = some d ∧ Rust.typeName "Board" = .ok ident ∧
        d.fields.flatMap fieldDeclarations =
          (d.fields.flatMap fieldMembers).map (fun m => m.1 ++ " " ++ m.2) ∧
        PrintsRecord boardSchema ds "Board" ident (d.kind = .struct)
          (d.fields.flatMap fieldMembers) fields ∧
        SameRecord boardSchema (Rust.typeFile ds) (d.fields.flatMap fieldMembers) fields
          l.slots := by
  have hclosed : boardSchema.Closed := by decide +kernel
  obtain ⟨l, hl⟩ : ∃ l, layout boardSchema "Board" = .ok l := exists_ok_of_isOk (by cbv)
  obtain ⟨ds, hds⟩ : ∃ ds, Rust.definitions boardSchema = .ok ds :=
    exists_ok_of_isOk (by decide +kernel)
  exact ⟨hclosed, l, ds, hl, hds, declarations_agree hclosed hl hds⟩

end Abi

end Bindery
