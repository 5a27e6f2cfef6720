import Bindery.Abi.Signature
import Bindery.Proofs.Text

/-!
# The texts of type references

Each of the five forms of a type has exactly one text, and `TypeRef.ofString?` reads
it back. `TypeRef.text` writes a form, and `TypeRef.WellFormed` says which values are
forms at all: the element of a buffer is numeric, a handle is a Pascal-case name, and
a schema type has a qualified name.

* `TypeRef.ofString?_eq_some_iff` — a text is read as a form exactly when it is the
  text of that form and the form is well-formed.

The forms do not overlap because their first characters tell them apart: a qualified
name begins with an upper-case letter, and all other texts begin with a lower-case
one.
-/

namespace Bindery

/-- A primitive is read from its own name and from nothing else. -/
theorem Primitive.ofName?_eq_some_iff {s : String} {p : Primitive} :
    Primitive.ofName? s = some p ↔ s = p.name := by
  constructor
  · intro h
    have hn := List.find?_some h
    rw [beq_iff_eq] at hn
    exact hn.symm
  · rintro rfl
    cases p <;> decide +kernel

/-- A qualified name begins with an upper-case letter. -/
theorem isUpper_of_isQualifiedName {s : String} (h : isQualifiedName s = true) :
    ∃ c cs, s.toList = c :: cs ∧ c.isUpper = true := by
  rw [isQualifiedName, List.all_eq_true] at h
  cases hs : s.toList with
  | nil =>
    -- the one piece of the empty text is empty, and no identifier
    rw [hs] at h
    exact absurd (h [] (by simp [Text.cutList])) (by simp [isPascalList])
  | cons c cs =>
    rw [hs] at h
    have hsep : c ≠ '.' := by
      -- a leading dot would cut off an empty piece
      rintro rfl
      exact absurd (h [] (by simp [Text.cutList])) (by simp [isPascalList])
    obtain ⟨piece, rest, hcut⟩ := Text.cutList_cons cs hsep
    have hpiece := h (c :: piece) (by rw [hcut]; exact List.mem_cons_self)
    rw [isPascalList, Bool.and_eq_true] at hpiece
    exact ⟨c, cs, rfl, hpiece.1⟩

namespace TypeRef

/-! ### Forms and their texts -/

/-- The text of a form. -/
def text : TypeRef → String
  | string => "string"
  | buffer element => "buffer<" ++ element.name ++ ">"
  | handle name => "handle:" ++ name
  | primitive p => p.name
  | qualified name => name

/-- The values that are forms of types. -/
def WellFormed : TypeRef → Prop
  | buffer element => element ≠ .bool
  | handle name => isPascalIdentifier name = true
  | qualified name => isQualifiedName name = true
  | string | primitive _ => True

theorem bufferElement?_eq_some_iff {ty element : String} :
    bufferElement? ty = some element ↔ ty = "buffer<" ++ element ++ ">" := by
  rw [bufferElement?, Option.bind_eq_bind, Option.bind_eq_some_iff]
  constructor
  · rintro ⟨rest, hrest, helement⟩
    rw [Text.dropPrefix?_eq_some_iff] at hrest
    rw [Text.dropSuffix?_eq_some_iff] at helement
    rw [hrest, helement, String.append_assoc]
  · intro h
    refine ⟨element ++ ">", ?_, ?_⟩
    · rw [Text.dropPrefix?_eq_some_iff, h, String.append_assoc]
    · rw [Text.dropSuffix?_eq_some_iff]

/-! ### First characters -/

/-- A text that begins otherwise than `buffer<` is no buffer. -/
theorem bufferElement?_eq_none {ty : String} {c : Char} {cs : List Char}
    (h : ty.toList = c :: cs) (hc : c ≠ 'b') : bufferElement? ty = none := by
  rw [Option.eq_none_iff_forall_ne_some]
  intro element he
  rw [bufferElement?_eq_some_iff] at he
  rw [he] at h
  simp only [String.toList_append, String.reduceToList, List.cons_append, List.cons.injEq] at h
  exact hc h.1.symm

/-- A text that begins otherwise than `handle:` is no handle. -/
theorem dropHandle?_eq_none {ty : String} {c : Char} {cs : List Char}
    (h : ty.toList = c :: cs) (hc : c ≠ 'h') : Text.dropPrefix? "handle:" ty = none := by
  rw [Option.eq_none_iff_forall_ne_some]
  intro name hn
  rw [Text.dropPrefix?_eq_some_iff] at hn
  rw [hn] at h
  simp only [String.toList_append, String.reduceToList, List.cons_append, List.cons.injEq] at h
  exact hc h.1.symm

/-- A text is no primitive if none has it as its name. -/
theorem ofName?_eq_none {ty : String} {c : Char} {cs : List Char} (h : ty.toList = c :: cs)
    (hc : c.isUpper = true) : Primitive.ofName? ty = none := by
  rw [Option.eq_none_iff_forall_ne_some]
  intro p hp
  rw [Primitive.ofName?_eq_some_iff] at hp
  subst hp
  -- every name of the table begins with a lower-case letter
  cases p <;>
    simp only [Primitive.name, Primitive.row, String.reduceToList, List.cons.injEq] at h <;>
    exact absurd hc (by rw [← h.1]; decide)

/-! ### Reading a text back -/

/-- A text that begins with `handle:` is the handle of the rest, if the rest is a name
of one, and otherwise nothing. -/
theorem ofString?_handle (name : String) :
    ofString? ("handle:" ++ name) =
      if isPascalIdentifier name then some (.handle name) else none := by
  have hl : ("handle:" ++ name).toList = 'h' :: ("andle:" ++ name).toList := by
    simp [String.toList_append]
  have hs : "handle:" ++ name ≠ "string" := by
    intro he
    rw [he] at hl
    simp at hl
  have hp : Text.dropPrefix? "handle:" ("handle:" ++ name) = some name :=
    Text.dropPrefix?_eq_some_iff.mpr rfl
  rw [ofString?, if_neg hs, bufferElement?_eq_none hl (by decide), hp]

/-- The text of a well-formed type is read as that type. -/
theorem ofString?_text {t : TypeRef} (h : t.WellFormed) : ofString? t.text = some t := by
  cases t with
  | string => rfl
  | buffer element =>
    have hb : bufferElement? (text (.buffer element)) = some element.name :=
      bufferElement?_eq_some_iff.mpr rfl
    have hn : Primitive.ofName? element.name = some element :=
      Primitive.ofName?_eq_some_iff.mpr rfl
    have hs : text (.buffer element) ≠ "string" := by
      intro he
      have hc := congrArg String.toList he
      simp [text, String.toList_append] at hc
    have hnum : element.isBufferElement = true := by
      simpa [WellFormed, Primitive.isBufferElement] using h
    rw [ofString?, if_neg hs, hb]
    simp only [hn, Option.filter_some, hnum, if_true, Option.map_some]
  | handle name =>
    rw [text, ofString?_handle]
    exact if_pos h
  | primitive p => cases p <;> decide +kernel
  | qualified name =>
    -- the upper-case letter in front rules out every other form
    obtain ⟨c, cs, hl, hu⟩ := isUpper_of_isQualifiedName h
    have hlow : ∀ d : Char, d.isUpper = false → c ≠ d := by
      rintro d hd rfl
      rw [hu] at hd
      exact Bool.noConfusion hd
    have hs : name ≠ "string" := by
      rintro rfl
      simp only [String.reduceToList, List.cons.injEq] at hl
      exact hlow 's' (by decide) hl.1.symm
    rw [text, ofString?, if_neg hs, bufferElement?_eq_none hl (hlow 'b' (by decide)),
      dropHandle?_eq_none hl (hlow 'h' (by decide)), ofName?_eq_none hl hu]
    exact if_pos h

/-- What is read from a text is well-formed and has that text. -/
theorem text_of_ofString? {ty : String} {t : TypeRef} (h : ofString? ty = some t) :
    ty = t.text ∧ t.WellFormed := by
  rw [ofString?] at h
  -- the forms are tried one after the other
  split at h
  · next hs =>
    cases h
    exact ⟨hs, trivial⟩
  · split at h
    · next element hb =>
      obtain ⟨p, hp, rfl⟩ := Option.map_eq_some_iff.mp h
      rw [Option.filter_eq_some_iff, Primitive.ofName?_eq_some_iff] at hp
      obtain ⟨rfl, hbool⟩ := hp
      refine ⟨bufferElement?_eq_some_iff.mp hb, ?_⟩
      simpa [WellFormed, Primitive.isBufferElement] using hbool
    · split at h
      · next name hp =>
        split at h
        · next hpascal =>
          cases h
          exact ⟨Text.dropPrefix?_eq_some_iff.mp hp, hpascal⟩
        · cases h
      · split at h
        · next p hp =>
          cases h
          exact ⟨Primitive.ofName?_eq_some_iff.mp hp, trivial⟩
        · split at h
          · next hq =>
            cases h
            exact ⟨rfl, hq⟩
          · cases h

/-- What is read as anything but a buffer does not have the brackets of one. -/
theorem bufferElement?_eq_none_of_ofString? {ty : String} {t : TypeRef}
    (h : ofString? ty = some t) (ht : ∀ element, t ≠ .buffer element) :
    bufferElement? ty = none := by
  rw [ofString?] at h
  split at h
  · next hs =>
    subst hs
    exact bufferElement?_eq_none (c := 's') rfl (by decide)
  · cases hb : bufferElement? ty with
    | none => rfl
    | some element =>
      -- between the brackets of a buffer nothing but its element is looked at
      rw [hb] at h
      obtain ⟨p, -, hp⟩ := Option.map_eq_some_iff.mp h
      exact absurd hp.symm (ht p)

/-- A text of any form but a buffer is read as that form, and does not look like a buffer. -/
theorem ofString?_of_text {ty : String} {t : TypeRef} (htext : ty = t.text)
    (hwell : t.WellFormed) (ht : ∀ element, t ≠ .buffer element) :
    bufferElement? ty = none ∧ ofString? ty = some t := by
  have hread : ofString? ty = some t := by
    rw [htext]
    exact ofString?_text hwell
  exact ⟨bufferElement?_eq_none_of_ofString? hread ht, hread⟩

/-- **Reading is the inverse of writing.** A text is read as a type exactly when it is
the text of that type and the type is well-formed. -/
theorem ofString?_eq_some_iff {ty : String} {t : TypeRef} :
    ofString? ty = some t ↔ ty = t.text ∧ t.WellFormed :=
  ⟨text_of_ofString?, fun h => h.1 ▸ ofString?_text h.2⟩

end TypeRef

/-- Sorting a text is reading it. -/
theorem classify_eq_ok_iff {ty : String} {t : TypeRef} :
    Abi.classify ty = .ok t ↔ TypeRef.ofString? ty = some t := by
  rw [Abi.classify]
  cases TypeRef.ofString? ty with
  | none => exact ⟨nofun, nofun⟩
  | some t' => simp

end Bindery
