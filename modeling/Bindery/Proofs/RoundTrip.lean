import Bindery.Proofs.Names.Description

/-!
# Descriptions are read back

A document is checked against a shape, then taken apart by a reader that knows nothing of the
shape, and a description is written by a third function. The three have to fit together:

* `Shape.Lossless` — every document of a shape is read, what was read is written in that shape
  again, and whatever is written is read back;
* `documents_load_losslessly` — this holds of descriptions.

The statement is put together along the shape. Texts and words are lossless, and a list is when
its items are (`lossless_text`, `lossless_word`, `lossless_list`). An object is read key by key,
and what stands under one key is a `Field`: a value that must be there, one that may be absent, or
a list that may be absent. An object all of whose fields are read back is read back itself
(`Fields.lossless`). For this, writing an object is brought into one form, with a value or nothing
under every key (`Json.record`): what is found under a key of the written object is what was put
there (`exists_entries_record`).
-/

namespace Bindery

/-! ### Written objects -/

theorem lookupEntry_eq_none {α : Type} {key : String} {entries : List (String × α)}
    (h : key ∉ entries.map (·.1)) : lookupEntry key entries = none := by
  rw [lookupEntry, Option.map_eq_none_iff, List.find?_eq_none]
  intro e he heq
  exact h (beq_iff_eq.mp heq ▸ List.mem_map_of_mem he)

/-- Among distinct keys, every entry is found under its key. -/
theorem lookupEntry_of_mem {α : Type} {entries : List (String × α)}
    (hkeys : (entries.map (·.1)).Nodup) {e : String × α} (he : e ∈ entries) :
    lookupEntry e.1 entries = some e.2 := by
  rw [lookupEntry, find?_name_eq_some hkeys he, Option.map_some]

namespace Json

/-- The object that has a value, or nothing, under each of these keys. -/
def record (fields : List (String × Option Json)) : Json :=
  ofEntries (fields.filterMap fun f => f.2.map (f.1, ·))

/-- Entries are inserted one after the other. -/
theorem lookupEntry_foldl_insertEntry (key : String) {fields : List (String × Option Json)}
    (hkeys : (fields.map (·.1)).Nodup) (acc : List (String × Json)) :
    lookupEntry key ((fields.filterMap fun f => f.2.map (f.1, ·)).foldl
        (fun acc e => insertEntry e.1 e.2 acc) acc) =
      (lookupEntry key fields).join.or (lookupEntry key acc) := by
  induction fields generalizing acc with
  | nil => rfl
  | cons f rest ih =>
    obtain ⟨k, o⟩ := f
    obtain ⟨hk, hrest⟩ := List.nodup_cons.mp hkeys
    -- a field without a value inserts nothing
    have hstep : lookupEntry key (((k, o) :: rest).filterMap (fun f => f.2.map (f.1, ·)) |>.foldl
          (fun acc e => insertEntry e.1 e.2 acc) acc) =
        (lookupEntry key rest).join.or (if k = key then o.or (lookupEntry key acc)
          else lookupEntry key acc) := by
      cases o with
      | none =>
        refine (ih hrest acc).trans ?_
        rw [Option.none_or, ite_self]
      | some v =>
        refine (ih hrest (insertEntry k v acc)).trans ?_
        rw [lookupEntry_insertEntry, Option.some_or]
    rw [hstep, lookupEntry_cons]
    by_cases h : k = key
    · -- the key does not come again
      subst h
      rw [lookupEntry_eq_none hk, if_pos rfl, if_pos rfl]
      rfl
    · rw [if_neg h, if_neg h]

/-- An entry of the object is one of those that were inserted. -/
theorem mem_foldl_insertEntry {es acc : List (String × Json)} {e : String × Json}
    (he : e ∈ es.foldl (fun acc e => insertEntry e.1 e.2 acc) acc) : e ∈ acc ∨ e ∈ es := by
  induction es generalizing acc with
  | nil => exact .inl he
  | cons first rest ih =>
    rcases ih he with he | he
    · rcases mem_insertEntry he with rfl | he
      · exact .inr List.mem_cons_self
      · exact .inl he
    · exact .inr (List.mem_cons_of_mem _ he)

/-- **What is found under a key of a written object is what was put there.** -/
theorem exists_entries_record {fields : List (String × Option Json)}
    (hkeys : (fields.map (·.1)).Nodup) :
    ∃ entries, record fields = obj entries ∧
      (∀ f ∈ fields, lookupEntry f.1 entries = f.2) ∧
      ∀ e ∈ entries, (e.1, some e.2) ∈ fields := by
  refine ⟨_, rfl, ?_, ?_⟩
  · intro f hf
    rw [lookupEntry_foldl_insertEntry f.1 hkeys, lookupEntry_of_mem hkeys hf]
    exact Option.or_none
  · intro e he
    rcases mem_foldl_insertEntry he with he | he
    · cases he
    · obtain ⟨f, hf, hfe⟩ := List.mem_filterMap.mp he
      obtain ⟨v, hv, rfl⟩ := Option.map_eq_some_iff.mp hfe
      rw [← hv]
      exact hf

end Json

/-! ### Values that are read back -/

namespace Shape

open Json

variable {α : Type} {read : Json → Option α} {write : α → Json}

/-- **Reading and writing fit a shape.** -/
structure Lossless (shape : Shape) (read : Json → Option α) (write : α → Json) : Prop where
  /-- Every document of the shape is read. -/
  reads : ∀ v, shape.fits v = true → ∃ a, read v = some a
  /-- What was read from a document of the shape is written in the shape. -/
  rewrites : ∀ v a, shape.fits v = true → read v = some a → shape.fits (write a) = true
  /-- Whatever is written is read back. -/
  restores : ∀ a, read (write a) = some a

/-- A text is read and written as it is. -/
theorem lossless_text (p : Option TextPattern) : (text p).Lossless text? str where
  reads v hv := by
    cases v with
    | str s => exact ⟨s, rfl⟩
    | null | bool _ | int _ | float _ | arr _ | obj _ => simp [fits] at hv
  rewrites v s hv hs := by
    cases v with
    | str t =>
      obtain rfl : t = s := Option.some.inj hs
      exact hv
    | null | bool _ | int _ | float _ | arr _ | obj _ => cases hs
  restores _ := rfl

/-- Words that name the values of a type. -/
theorem lossless_word {words : List String} {ofName? : String → Option α} {name : α → String}
    (hreads : ∀ w ∈ words, (ofName? w).isSome = true) (hwords : ∀ a, name a ∈ words)
    (hnames : ∀ a, ofName? (name a) = some a) :
    (word words).Lossless (fun v => v.text? >>= ofName?) (fun a => str (name a)) where
  reads v hv := by
    cases v with
    | str s => exact Option.isSome_iff_exists.mp (hreads s (List.contains_iff_mem.mp hv))
    | null | bool _ | int _ | float _ | arr _ | obj _ => simp [fits] at hv
  rewrites _ a _ _ := List.contains_iff_mem.mpr (hwords a)
  restores := hnames

/-- The items of a list that is read are read one by one. -/
theorem exists_items_of_read {v : Json} {xs : List α}
    (h : (v.items? >>= (·.mapM read)) = some xs) :
    ∃ items, v = arr items ∧ List.Forall₂ (fun j x => read j = some x) items xs := by
  cases v with
  | arr items => exact ⟨items, rfl, mapM_eq_some_iff.mp h⟩
  | null | bool _ | int _ | float _ | str _ | obj _ => cases h

/-- A list is read when its items are, and so is one that was written. -/
theorem reads_list {item : Shape} (h : item.Lossless read write) {nonempty distinct : Bool}
    {v : Json} (hv : (list item nonempty distinct).fits v = true) :
    ∃ xs, (v.items? >>= (·.mapM read)) = some xs := by
  cases v with
  | arr items =>
    simp only [fits, Bool.and_eq_true, List.all_eq_true] at hv
    obtain ⟨xs, hxs⟩ := exists_forall₂ fun j hj => h.reads j (hv.1.1 j hj)
    exact ⟨xs, mapM_eq_some_iff.mpr hxs⟩
  | null | bool _ | int _ | float _ | str _ | obj _ => simp [fits] at hv

theorem restores_list {item : Shape} (h : item.Lossless read write) (xs : List α) :
    ((arr (xs.map write)).items? >>= (·.mapM read)) = some xs := by
  refine mapM_eq_some_iff.mpr ?_
  rw [List.forall₂_map_left_iff, List.forall₂_same]
  exact fun x _ => h.restores x

theorem lossless_list {item : Shape} (h : item.Lossless read write) (nonempty : Bool) :
    (list item nonempty false).Lossless (fun v => v.items? >>= (·.mapM read))
      (fun xs => arr (xs.map write)) where
  reads _ := reads_list h
  rewrites v xs hv hread := by
    obtain ⟨items, rfl, hitems⟩ := exists_items_of_read hread
    simp only [fits, Bool.and_eq_true, List.all_eq_true, Bool.false_and, Bool.not_false,
      and_true] at hv ⊢
    refine ⟨?_, ?_⟩
    · rw [List.forall_mem_map]
      intro x hx
      -- An item that is written again was read from one that fits.
      obtain ⟨j, hj, hjx⟩ := exists_mem_of_forall₂ hitems.flip hx
      exact h.rewrites j x (hv.1 j hj) hjx
    · -- a list without items has been read as one
      rw [List.isEmpty_map]
      cases hitems with
      | nil => exact hv.2
      | cons _ _ => rw [List.isEmpty_cons, Bool.and_false]; rfl
  restores := restores_list h

/-- A list whose items are written as they were read is written as it was read, and so without
repetitions if there were none. -/
theorem lossless_list_of_exact {item : Shape} (h : item.Lossless read write)
    (exact : ∀ v a, read v = some a → write a = v) (nonempty distinct : Bool) :
    (list item nonempty distinct).Lossless (fun v => v.items? >>= (·.mapM read))
      (fun xs => arr (xs.map write)) where
  reads _ := reads_list h
  rewrites v xs hv hread := by
    obtain ⟨items, rfl, hitems⟩ := exists_items_of_read hread
    have hsame : xs.map write = items.map id := map_eq_map_of_forall₂ hitems exact
    rw [hsame, List.map_id]
    exact hv
  restores := restores_list h

/-! ### Objects that are read back -/

/-- The entries of an object of a shape. -/
structure Allowed (properties : List (String × Shape)) (required : List String)
    (entries : List (String × Json)) : Prop where
  fitting : Fitting properties entries
  present : ∀ key ∈ required, ∃ v, lookupEntry key entries = some v

theorem exists_allowed {properties : List (String × Shape)} {required : List String} {v : Json}
    (h : (object properties required).fits v = true) :
    ∃ entries, v = obj entries ∧ Allowed properties required entries := by
  cases v with
  | obj entries =>
    have hgroup : (obj entries).group? [] = some entries := rfl
    refine ⟨entries, rfl, fitting_of_group? h hgroup, ?_⟩
    intro key hkey
    simp only [fits, Bool.and_eq_true, List.all_eq_true] at h
    exact Option.isSome_iff_exists.mp (h.2 key hkey)
  | null | bool _ | int _ | float _ | str _ | arr _ => simp [fits] at h

/-- An object is written in its shape if each of its fields is, and none is missing. -/
theorem fits_record {properties : List (String × Shape)} {required : List String}
    {fields : List (String × Option Json)} (hkeys : (fields.map (·.1)).Nodup)
    (hfields : ∀ f ∈ fields, ∀ v, f.2 = some v → fitsProperty properties f.1 v = true)
    (hrequired : ∀ key ∈ required, ∃ v, (key, some v) ∈ fields) :
    (object properties required).fits (record fields) = true := by
  obtain ⟨entries, hrecord, hlookup, hentries⟩ := exists_entries_record hkeys
  rw [hrecord]
  simp only [fits, Bool.and_eq_true, List.all_eq_true]
  refine ⟨fun e he => hfields _ (hentries e he) e.2 rfl, fun key hkey => ?_⟩
  obtain ⟨v, hv⟩ := hrequired key hkey
  exact Option.isSome_iff_exists.mpr ⟨v, hlookup _ hv⟩

/-- **What is read under a key of an object, and what is written there**, a value or nothing. -/
structure Field {β : Type} (properties : List (String × Shape)) (required : List String)
    (key : String) (read : List (String × Json) → Option β) (write : β → Option Json) : Prop where
  reads : ∀ {entries}, Allowed properties required entries → ∃ b, read entries = some b
  rewrites : ∀ {entries b}, Allowed properties required entries → read entries = some b →
    ∀ v, write b = some v → fitsProperty properties key v = true
  restores : ∀ {entries b}, lookupEntry key entries = write b → read entries = some b

section Field

variable {shape : Shape} {properties : List (String × Shape)} {required : List String}
  {key : String}

/-- A value that must be there. -/
theorem Lossless.requiredField (h : shape.Lossless read write) (key : String)
    (hshape : lookupEntry key properties = some shape) (hkey : key ∈ required) :
    Field properties required key (Json.required read key) (fun a => some (write a)) where
  reads allowed := by
    obtain ⟨v, hv⟩ := allowed.present key hkey
    obtain ⟨a, ha⟩ := h.reads v (allowed.fitting key shape v hshape hv)
    exact ⟨a, Option.bind_eq_some_iff.mpr ⟨v, hv, ha⟩⟩
  rewrites allowed hread v hv := by
    obtain ⟨w, hw, ha⟩ := Option.bind_eq_some_iff.mp hread
    obtain rfl := Option.some.inj hv
    rw [fitsProperty_eq hshape]
    exact h.rewrites w _ (allowed.fitting key shape w hshape hw) ha
  restores hlookup := Option.bind_eq_some_iff.mpr ⟨_, hlookup, h.restores _⟩

theorem optional_of_ne_null {entries : List (String × Json)} {v : Json}
    (hlookup : lookupEntry key entries = some v) (hv : v ≠ null) :
    Json.optional read key entries = (read v).map some := by
  unfold Json.optional
  rw [hlookup]
  cases v with
  | null => exact absurd rfl hv
  | bool _ | int _ | float _ | str _ | arr _ | obj _ => rfl

/-- A value that may be absent. No value is null, which would be read as an absent one. -/
theorem Lossless.optionalField (h : shape.Lossless read write) (key : String)
    (hnull : read null = none)
    (hshape : lookupEntry key properties = some shape) :
    Field properties required key (Json.optional read key) (Option.map write) := by
  have hvalue : ∀ {v a}, read v = some a → v ≠ null := by
    rintro v a ha rfl
    rw [hnull] at ha
    cases ha
  -- what is there is read, it is written back in its shape, and read again
  refine ⟨?_, ?_, ?_⟩
  · intro entries allowed
    cases hv : lookupEntry key entries with
    | none => exact ⟨none, by rw [Json.optional, hv]⟩
    | some v =>
      obtain ⟨a, ha⟩ := h.reads v (allowed.fitting key shape v hshape hv)
      exact ⟨some a, by rw [optional_of_ne_null hv (hvalue ha), ha, Option.map_some]⟩
  · intro entries b allowed hread w hw
    obtain ⟨a, rfl, rfl⟩ := Option.map_eq_some_iff.mp hw
    cases hv : lookupEntry key entries with
    | none =>
      rw [Json.optional, hv] at hread
      cases hread
    | some v =>
      have hfits := allowed.fitting key shape v hshape hv
      obtain ⟨a', ha'⟩ := h.reads v hfits
      rw [optional_of_ne_null hv (hvalue ha'), ha', Option.map_some] at hread
      obtain rfl : a' = a := by simpa using hread
      rw [fitsProperty_eq hshape]
      exact h.rewrites v a' hfits ha'
  · intro entries b hlookup
    cases b with
    | none => rw [Json.optional, hlookup, Option.map_none]
    | some a =>
      have hrestored := h.restores a
      rw [optional_of_ne_null hlookup (hvalue hrestored), hrestored, Option.map_some]

/-- A list that may be absent is read as an empty one, or as the list that is there. -/
theorem listOf_eq_some_iff {entries : List (String × Json)} {xs : List α} :
    Json.listOf read key entries = some xs ↔
      (lookupEntry key entries = none ∧ xs = []) ∨
        ∃ v, lookupEntry key entries = some v ∧ (v.items? >>= (·.mapM read)) = some xs := by
  unfold Json.listOf
  cases lookupEntry key entries with
  | none => simp [eq_comm]
  | some v => simp

/-- A list that may be absent. It is written even if it has no items, or only if it has some, and
then the shape asks for that too. -/
theorem Lossless.listField {item : Shape} {nonempty distinct : Bool}
    (h : (list item nonempty distinct).Lossless (fun v => v.items? >>= (·.mapM read))
      (fun xs => arr (xs.map write))) (key : String)
    (hshape : lookupEntry key properties = some (list item nonempty distinct)) :
    Field properties required key (Json.listOf read key)
      (fun xs => if nonempty && xs.isEmpty then none else some (arr (xs.map write))) where
  reads {entries} allowed := by
    cases hv : lookupEntry key entries with
    | none => exact ⟨[], listOf_eq_some_iff.mpr (.inl ⟨hv, rfl⟩)⟩
    | some v =>
      -- what is there is a list of the shape
      obtain ⟨xs, hxs⟩ := h.reads v (allowed.fitting key _ v hshape hv)
      exact ⟨xs, listOf_eq_some_iff.mpr (.inr ⟨v, hv, hxs⟩)⟩
  rewrites {entries xs} allowed hread w hw := by
    rw [fitsProperty_eq hshape]
    rcases listOf_eq_some_iff.mp hread with ⟨-, rfl⟩ | ⟨v, hv, hxs⟩
    · -- nothing was there, and the shape lets an empty list stand in its place
      cases nonempty with
      | true => cases hw
      | false =>
        obtain rfl := Option.some.inj hw
        cases distinct <;> rfl
    · have hwritten := h.rewrites v xs (allowed.fitting key _ v hshape hv) hxs
      by_cases hempty : (nonempty && xs.isEmpty) = true
      · rw [if_pos hempty] at hw
        cases hw
      · rw [if_neg hempty] at hw
        obtain rfl := Option.some.inj hw
        exact hwritten
  restores {entries xs} hlookup := by
    -- an empty list that is not written is read from the missing key
    rw [listOf_eq_some_iff]
    by_cases hempty : (nonempty && xs.isEmpty) = true
    · rw [if_pos hempty] at hlookup
      exact .inl ⟨hlookup, List.isEmpty_iff.mp (Bool.and_eq_true_iff.mp hempty).2⟩
    · rw [if_neg hempty] at hlookup
      exact .inr ⟨_, hlookup, h.restores xs⟩

end Field

/-- **Several fields of one object**, read one after the other. -/
structure Fields {β : Type} (properties : List (String × Shape)) (required : List String)
    (read : List (String × Json) → Option β) (write : β → List (String × Option Json)) :
    Prop where
  reads : ∀ {entries}, Allowed properties required entries → ∃ b, read entries = some b
  rewrites : ∀ {entries b}, Allowed properties required entries → read entries = some b →
    ∀ f ∈ write b, ∀ v, f.2 = some v → fitsProperty properties f.1 v = true
  restores : ∀ {entries b}, (∀ f ∈ write b, lookupEntry f.1 entries = f.2) → read entries = some b

section Fields

variable {β γ : Type} {properties : List (String × Shape)} {required : List String} {key : String}
  {readField : List (String × Json) → Option β} {writeField : β → Option Json}
  {readRest : List (String × Json) → Option γ} {writeRest : γ → List (String × Option Json)}

theorem Fields.nil : Fields properties required (fun _ => some ()) (fun _ => []) where
  reads _ := ⟨(), rfl⟩
  rewrites _ _ := nofun
  restores _ := rfl

theorem Fields.cons (first : Field properties required key readField writeField)
    (rest : Fields properties required readRest writeRest) :
    Fields properties required
      (fun entries => (readField entries).bind fun b => (readRest entries).map (b, ·))
      (fun p => (key, writeField p.1) :: writeRest p.2) where
  reads allowed := by
    obtain ⟨b, hb⟩ := first.reads allowed
    obtain ⟨c, hc⟩ := rest.reads allowed
    exact ⟨(b, c), by rw [hb, hc]; rfl⟩
  rewrites allowed hread := by
    obtain ⟨b, hb, hread⟩ := Option.bind_eq_some_iff.mp hread
    obtain ⟨c, hc, rfl⟩ := Option.map_eq_some_iff.mp hread
    exact List.forall_mem_cons.mpr ⟨first.rewrites allowed hb, rest.rewrites allowed hc⟩
  restores hlookup := by
    obtain ⟨hfirst, hrest⟩ := List.forall_mem_cons.mp hlookup
    rw [first.restores hfirst, rest.restores hrest]
    rfl

/-- **An object is read back if its fields are.** The value that it stands for is put together
from the values of the fields, and taken apart into them. -/
theorem Fields.lossless {ofJson? : Json → Option α} {toJson : α → Json}
    (fields : Fields properties required readRest writeRest) (parts : α ≃ γ)
    (hread : ∀ entries, ofJson? (obj entries) = (readRest entries).map parts.symm)
    (hwrite : ∀ a, toJson a = record (writeRest (parts a)))
    (hkeys : ∀ c, ((writeRest c).map (·.1)).Nodup)
    (hrequired : ∀ c, ∀ key ∈ required, ∃ v, (key, some v) ∈ writeRest c) :
    (object properties required).Lossless ofJson? toJson where
  -- What holds of the fields one by one is put together by the record of the entries.
  reads v hv := by
    obtain ⟨entries, rfl, allowed⟩ := exists_allowed hv
    obtain ⟨c, hc⟩ := fields.reads allowed
    exact ⟨parts.symm c, by rw [hread, hc, Option.map_some]⟩
  rewrites v a hv ha := by
    obtain ⟨entries, rfl, allowed⟩ := exists_allowed hv
    rw [hread] at ha
    obtain ⟨c, hc, rfl⟩ := Option.map_eq_some_iff.mp ha
    rw [hwrite, parts.apply_symm_apply]
    exact fits_record (hkeys c) (fields.rewrites allowed hc) (hrequired c)
  restores a := by
    obtain ⟨entries, hrecord, hlookup, -⟩ := exists_entries_record (hkeys (parts a))
    rw [hwrite, hrecord, hread, fields.restores hlookup, Option.map_some, parts.symm_apply_apply]

end Fields

/-! ### The parts of a description -/

theorem lossless_handle : handle.Lossless Handle.ofJson? Handle.toJson := by
  refine Fields.lossless
    (.cons ((lossless_text _).requiredField "name" rfl (by decide))
    (.cons ((lossless_text _).optionalField "description" rfl rfl) .nil))
    ⟨fun h => (h.name, h.description, ()), fun p => ⟨p.1, p.2.1⟩, fun _ => rfl, fun _ => rfl⟩
    ?_ ?_ ?_ ?_
  · intro entries
    simp [Handle.ofJson?, group?]
  · rintro ⟨name, _ | description⟩ <;> rfl
  · simp
  · simp

theorem lossless_transfer :
    (word ["value", "ref", "ref_mut"]).Lossless (fun v => v.text? >>= Transfer.ofName?)
      (fun t => str t.name) := by
  refine lossless_word (by decide) ?_ ?_
  all_goals
    intro t
    cases t <;> decide

theorem lossless_parameter : parameter.Lossless Parameter.ofJson? Parameter.toJson := by
  refine Fields.lossless
    (.cons ((lossless_text _).requiredField "name" rfl (by decide))
    (.cons ((lossless_text _).requiredField "type" rfl (by decide))
    (.cons (lossless_transfer.optionalField "transfer" rfl rfl)
    (.cons ((lossless_text _).optionalField "description" rfl rfl) .nil))))
    ⟨fun p => (p.name, p.type, p.transfer, p.description, ()),
      fun p => ⟨p.1, p.2.1, p.2.2.1, p.2.2.2.1⟩, fun _ => rfl, fun _ => rfl⟩
    ?_ ?_ ?_ ?_
  · intro entries
    simp [Parameter.ofJson?, group?]
  · rintro ⟨name, type, _ | transfer, _ | description⟩ <;> rfl
  · simp
  · simp

theorem lossless_returns : returns.Lossless Returns.ofJson? Returns.toJson := by
  refine Fields.lossless
    (.cons ((lossless_text _).requiredField "type" rfl (by decide))
    (.cons ((lossless_text _).optionalField "description" rfl rfl) .nil))
    ⟨fun r => (r.type, r.description, ()), fun p => ⟨p.1, p.2.1⟩, fun _ => rfl, fun _ => rfl⟩
    ?_ ?_ ?_ ?_
  · intro entries
    simp [Returns.ofJson?, group?]
  · rintro ⟨type, _ | description⟩ <;> rfl
  · simp
  · simp

theorem lossless_method : method.Lossless Method.ofJson? Method.toJson := by
  refine Fields.lossless
    (.cons ((lossless_text _).requiredField "name" rfl (by decide))
    (.cons ((lossless_list lossless_parameter false).listField "parameters" rfl)
    (.cons ((lossless_text _).optionalField "description" rfl rfl)
    (.cons (lossless_returns.optionalField "returns" rfl rfl)
    (.cons ((lossless_text _).optionalField "error" rfl rfl) .nil)))))
    ⟨fun m => (m.name, m.parameters, m.description, m.returns, m.error, ()),
      fun p => ⟨p.1, p.2.2.1, p.2.1, p.2.2.2.1, p.2.2.2.2.1⟩, fun _ => rfl, fun _ => rfl⟩
    ?_ ?_ ?_ ?_
  · intro entries
    -- the text that describes the method is read before its parameters and written after them
    simp [Method.ofJson?, group?, Option.bind_comm (Json.optional text? "description" entries)]
  · rintro ⟨name, _ | description, parameters, _ | returns, _ | error⟩ <;> rfl
  · simp
  · simp

theorem lossless_interface : interface.Lossless Interface.ofJson? Interface.toJson := by
  refine Fields.lossless
    (.cons ((lossless_text _).requiredField "name" rfl (by decide))
    (.cons ((lossless_list lossless_method false).listField "constructors" rfl)
    (.cons ((lossless_list lossless_method false).listField "methods" rfl)
    (.cons ((lossless_text _).optionalField "description" rfl rfl) .nil))))
    ⟨fun i => (i.name, i.constructors, i.methods, i.description, ()),
      fun p => ⟨p.1, p.2.2.2.1, p.2.1, p.2.2.1⟩, fun _ => rfl, fun _ => rfl⟩
    ?_ ?_ ?_ ?_
  · intro entries
    simp [Interface.ofJson?, group?, Option.bind_comm (Json.optional text? "description" entries)]
  · rintro ⟨name, _ | description, constructors, methods⟩ <;> rfl
  · simp
  · simp

/-- A language has one spelling of its own and may have others. -/
theorem lossless_language :
    (word ["cpp", "rust", "go", "go-like", "c"]).Lossless (fun v => v.text? >>= Language.ofName?)
      (fun l => str l.name) := by
  refine lossless_word (by decide) ?_ ?_
  all_goals
    intro l
    cases l <;> decide

theorem lossless_target :
    (word ["android", "ios", "web", "windows", "macos", "linux"]).Lossless
      (fun v => v.text? >>= Target.ofName?) (fun t => str t.name) := by
  refine lossless_word (by decide) ?_ ?_
  all_goals
    intro t
    cases t <;> decide

/-- A target has one spelling only. -/
theorem target_exact (v : Json) (t : Target) (h : (v.text? >>= Target.ofName?) = some t) :
    str t.name = v := by
  cases v with
  | str s =>
    have hfound : Target.ofName? s = some t := h
    have hname := List.find?_some hfound
    rw [beq_iff_eq.mp hname]
  | null | bool _ | int _ | float _ | arr _ | obj _ => cases h

theorem lossless_metadata : metadata.Lossless Metadata.ofJson? Metadata.toJson := by
  refine Fields.lossless
    (.cons ((lossless_text _).requiredField "name" rfl (by decide))
    (.cons ((lossless_text _).requiredField "version" rfl (by decide))
    (.cons (lossless_language.requiredField "impl_lang" rfl (by decide))
    (.cons ((lossless_text _).optionalField "description" rfl rfl)
    (.cons ((lossless_list_of_exact lossless_target target_exact true true).listField "targets" rfl)
      .nil)))))
    ⟨fun m => (m.name, m.version, m.language, m.description, m.targets, ()),
      fun p => ⟨p.1, p.2.1, p.2.2.2.1, p.2.2.1, p.2.2.2.2.1⟩, fun _ => rfl, fun _ => rfl⟩
    ?_ ?_ ?_ ?_
  · intro entries
    simp [Metadata.ofJson?, group?, Option.bind_comm (Json.optional text? "description" entries)]
  · rintro ⟨name, version, _ | description, language, _ | ⟨target, targets⟩⟩ <;> rfl
  · simp
  · simp

/-- **Descriptions are read back.** -/
theorem lossless_description : description.Lossless Api.ofJson? Api.toJson := by
  refine Fields.lossless
    (.cons (lossless_metadata.requiredField "api" rfl (by decide))
    (.cons ((lossless_list (lossless_text _) true).requiredField "flatbuffers" rfl (by decide))
    (.cons ((lossless_list lossless_handle false).listField "handles" rfl)
    (.cons ((lossless_list lossless_interface true).requiredField "interfaces" rfl (by decide))
      .nil))))
    ⟨fun a => (a.metadata, a.schemas, a.handles, a.interfaces, ()),
      fun p => ⟨p.1, p.2.1, p.2.2.1, p.2.2.2.1⟩, fun _ => rfl, fun _ => rfl⟩
    ?_ ?_ ?_ ?_
  -- The three laws of the fields: how they are read, written, and kept apart.
  · intro entries
    simp [Api.ofJson?, group?]
  · intro a
    rfl
  · simp
  · simp

/-- A check that passes has nothing to say. -/
theorem check_eq_ok_iff {shape : Shape} {v : Json} :
    shape.check v = .ok () ↔ shape.fits v = true := by
  rw [← isOk_check]
  cases shape.check v with
  | ok _ => exact ⟨fun _ => rfl, fun _ => rfl⟩
  | error e => exact ⟨nofun, nofun⟩

end Shape

/-- A document that has the shape of a description is one. -/
theorem exists_ofDocument_of_check {doc : Json} (h : Shape.description.check doc = .ok ()) :
    ∃ a, Api.ofDocument doc = .ok a := by
  have hfits := Shape.check_eq_ok_iff.mp h
  obtain ⟨a, ha⟩ := Shape.lossless_description.reads doc hfits
  exact ⟨a, ofDocument_eq_ok_iff.mpr ⟨hfits, ha⟩⟩

/-- Once the shape is right, a document is never refused. -/
theorem ofDocument_ne_mismatch (doc : Json) : Api.ofDocument doc ≠ .error .mismatch := by
  intro h
  cases hcheck : Shape.description.check doc with
  | error violation =>
    rw [Api.ofDocument, hcheck] at h
    cases h
  | ok _ =>
    obtain ⟨a, ha⟩ := exists_ofDocument_of_check hcheck
    rw [ha] at h
    cases h

/-- **Documents load without loss.** A document that has the shape of a description is read as
one, which is written in that shape again and then read as the same description; no text fails
for any other reason than that it is no document or has another shape; and every description,
whatever stands in it, is read back from what it is written as. -/
theorem documents_load_losslessly :
    (∀ doc, Shape.description.check doc = .ok () →
      ∃ a, Api.ofDocument doc = .ok a ∧ Shape.description.check a.toJson = .ok () ∧
        Api.ofDocument a.toJson = .ok a) ∧
    (∀ text, Api.ofYaml text ≠ .error .mismatch) ∧
    ∀ a : Api, Api.ofJson? a.toJson = some a := by
  have hlossless := Shape.lossless_description
  refine ⟨?_, ?_, hlossless.restores⟩
  · intro doc hdoc
    obtain ⟨a, ha⟩ := exists_ofDocument_of_check hdoc
    obtain ⟨hfits, hread⟩ := ofDocument_eq_ok_iff.mp ha
    have hwritten := hlossless.rewrites doc a hfits hread
    exact ⟨a, ha, Shape.check_eq_ok_iff.mpr hwritten,
      ofDocument_eq_ok_iff.mpr ⟨hwritten, hlossless.restores a⟩⟩
  · intro text h
    rw [Api.ofYaml] at h
    -- A text that is no document fails before the fields are looked at.
    cases hload : Yaml.load text with
    | error problem =>
      rw [hload] at h
      cases h
    | ok doc =>
      rw [hload] at h
      exact ofDocument_ne_mismatch doc h

/-- Another spelling of the language, and some targets. -/
def lampMetadata : Json :=
  .obj [
    ("impl_lang", .str "go-like"), ("name", .str "lamp"),
    ("targets", .arr [.str "web", .str "ios"]), ("version", .str "1.2.0")]

/-- A list without members, and texts that are left out in some places and not in others. -/
def lampEntries : List (String × Json) :=
  [ ("flatbuffers", .arr [.str "lamp.fbs"]),
    ("interfaces", .arr [
      .obj [
        ("description", .str "The lamp."),
        ("methods", .arr [
          .obj [("name", .str "dim"), ("parameters", .arr [
            .obj [("name", .str "level"), ("transfer", .str "value"), ("type", .str "uint8")]])],
          .obj [("name", .str "state"), ("returns", .obj [("type", .str "Lamp.State")])]]),
        ("name", .str "lamp")],
      .obj [("constructors", .arr []), ("name", .str "switch")]]) ]

def lampDocument : Json := .obj (("api", lampMetadata) :: lampEntries)

theorem documents_load_losslessly_lamp :
    Shape.description.check lampDocument = .ok () ∧
      ∃ a, Api.ofDocument lampDocument = .ok a ∧ a.metadata.language = .go ∧
        a.handles = [] ∧ Shape.description.check a.toJson = .ok () ∧
        Api.ofDocument a.toJson = .ok a := by
  have hmetadata : Shape.metadata.fits lampMetadata = true := by cbv
  have hcheck : Shape.description.check lampDocument = .ok () := by
    rw [Shape.check_eq_ok_iff]
    change ((Shape.metadata.fits lampMetadata &&
      lampEntries.all fun e => Shape.fitsProperty _ e.1 e.2) && _) = true
    rw [hmetadata, Bool.true_and]
    decide
  obtain ⟨a, ha, hwritten, hread⟩ := documents_load_losslessly.1 lampDocument hcheck
  have hlamp : Api.ofJson? lampDocument = some a := (ofDocument_eq_ok_iff.mp ha).2
  have hlanguage : (Api.ofJson? lampDocument).map (·.metadata.language) = some .go := by decide
  have hhandles : (Api.ofJson? lampDocument).map (·.handles) = some [] := by decide
  rw [hlamp] at hlanguage hhandles
  exact ⟨hcheck, a, ha, Option.some.inj hlanguage, Option.some.inj hhandles, hwritten, hread⟩

end Bindery
