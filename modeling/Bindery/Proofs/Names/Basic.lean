import Bindery.Proofs.Layout.Declarations
import Bindery.Schema.Phrase

/-!
# Plain names

Whatever a description or a schema calls something ends up as an identifier of generated
code. Most names come from readers that take letters, digits and underscores of ASCII and
nothing else, and such names are identifiers in every language:

* `Spelled` — a text whose first character is in one class and whose characters are all in
  another; plain names, dotted names and names in snake case are instances;
* `spelled_of_name?` — what the reader of names reads is spelled in its classes;
* `IsPlain.pascalCase`, `IsDotted.flatTypeName` — a spelling that is made of a plain name is
  plain again;
* `Rust.succeeds_chosenName_iff` — the names that Rust takes, which all plain ones are
  (`IsPlain.isName`).
-/

namespace Bindery

open Schema (isNameStart isNameTail isDottedTail name?)

/-! ### Characters -/

theorem isNameTail_of_isAlphanum {c : Char} (h : c.isAlphanum = true) : isNameTail c = true := by
  simp [isNameTail, h]

theorem isNameTail_of_isNameStart {c : Char} (h : isNameStart c = true) : isNameTail c = true := by
  rw [isNameStart, Bool.or_eq_true] at h
  rw [isNameTail, Char.isAlphanum, Bool.or_eq_true, Bool.or_eq_true]
  exact h.imp_left .inl

theorem isDottedTail_of_isNameTail {c : Char} (h : isNameTail c = true) :
    isDottedTail c = true := by
  simp [isDottedTail, h]

theorem isNameStart_of_isAlpha {c : Char} (h : c.isAlpha = true) : isNameStart c = true := by
  simp [isNameStart, h]

theorem isNameStart_of_isLower {c : Char} (h : c.isLower = true) : isNameStart c = true := by
  simp [isNameStart, Char.isAlpha, h]

theorem isNameStart_of_isUpper {c : Char} (h : c.isUpper = true) : isNameStart c = true := by
  simp [isNameStart, Char.isAlpha, h]

theorem isNameTail_of_isSnakeTail {c : Char} (h : isSnakeTail c = true) : isNameTail c = true := by
  simp only [isSnakeTail, Bool.or_eq_true, decide_eq_true_eq] at h
  rcases h with (hlower | hdigit) | rfl
  · exact isNameTail_of_isNameStart (isNameStart_of_isLower hlower)
  · exact isNameTail_of_isAlphanum (by simp [Char.isAlphanum, hdigit])
  · rfl

/-- A letter in another case is a letter. -/
theorem isNameTail_toUpper {c : Char} (h : isNameTail c = true) : isNameTail c.toUpper = true := by
  by_cases hlower : c.isLower = true
  · have hupper : c.toUpper.isUpper = true := by simp [Char.isAlpha, hlower]
    exact isNameTail_of_isNameStart (isNameStart_of_isUpper hupper)
  · rwa [Char.toUpper_eq_of_not_isLower hlower]

theorem isNameTail_toLower {c : Char} (h : isNameTail c = true) : isNameTail c.toLower = true := by
  by_cases hupper : c.isUpper = true
  · have hlower : c.toLower.isLower = true := by simp [Char.isAlpha, hupper]
    exact isNameTail_of_isNameStart (isNameStart_of_isLower hlower)
  · rwa [Char.toLower_eq_of_not_isUpper hupper]

/-- What starts a plain name starts an identifier. -/
theorem isIdentifierStart_of_isNameStart {c : Char} (h : isNameStart c = true) :
    c = '_' ∨ Text.isIdentifierStart c = true := by
  simp only [isNameStart, Bool.or_eq_true, decide_eq_true_eq] at h
  exact h.symm.imp_right fun halpha => by simp [Text.isIdentifierStart, halpha]

theorem isIdentifierContinue_of_isNameTail {c : Char} (h : isNameTail c = true) :
    Text.isIdentifierContinue c = true := by
  simp only [isNameTail, Char.isAlphanum, Bool.or_eq_true, decide_eq_true_eq] at h
  rcases h with (halpha | hdigit) | hunder
  · exact Text.isIdentifierContinue_of_start (by simp [Text.isIdentifierStart, halpha])
  · simp [Text.isIdentifierContinue, hdigit]
  · simp [Text.isIdentifierContinue, hunder]

/-! ### Spellings -/

/-- The text has a first character, which is in one class, and all its characters are in
another. -/
structure Spelled (first all : Char → Bool) (s : String) : Prop where
  first : ∃ c, s.toList.head? = some c ∧ first c = true
  all : ∀ c ∈ s.toList, all c = true

/-- **A plain name**: a letter or an underscore, then letters, digits and underscores. -/
def IsPlain (s : String) : Prop := Spelled isNameStart isNameTail s

/-- **A dotted name**: a plain name with dots after its first character. -/
def IsDotted (s : String) : Prop := Spelled isNameStart isDottedTail s

/-- **The name of a type**: a dotted name that begins with a letter. -/
def IsTypeName (s : String) : Prop := Spelled Char.isAlpha isDottedTail s

variable {first all first' all' : Char → Bool} {s t : String}

theorem spelled_iff :
    Spelled first all s ↔ (s.toList.head?.any first && s.toList.all all) = true := by
  rw [Bool.and_eq_true, Option.any_eq_true, List.all_eq_true]
  exact ⟨fun h => ⟨h.first, h.all⟩, fun h => ⟨h.1, h.2⟩⟩

instance : Decidable (Spelled first all s) := decidable_of_iff' _ spelled_iff

instance : Decidable (IsPlain s) := inferInstanceAs (Decidable (Spelled isNameStart isNameTail s))

theorem Spelled.mono (h : Spelled first all s) (hfirst : ∀ c, first c = true → first' c = true)
    (hall : ∀ c, all c = true → all' c = true) : Spelled first' all' s := by
  obtain ⟨c, hc, hclass⟩ := h.first
  exact ⟨⟨c, hc, hfirst c hclass⟩, fun d hd => hall d (h.all d hd)⟩

/-- Something is put behind. -/
theorem Spelled.append (h : Spelled first all s) (ht : ∀ c ∈ t.toList, all c = true) :
    Spelled first all (s ++ t) := by
  obtain ⟨c, hc, hclass⟩ := h.first
  refine ⟨⟨c, ?_, hclass⟩, fun d hd => ?_⟩
  · rw [String.toList_append, List.head?_append, hc]
    rfl
  · rw [String.toList_append, List.mem_append] at hd
    exact hd.elim (h.all d) (ht d)

theorem spelled_cons {c : Char} {cs : List Char} (hfirst : first c = true)
    (hall : ∀ d ∈ c :: cs, all d = true) : Spelled first all (String.ofList (c :: cs)) := by
  refine ⟨⟨c, ?_, hfirst⟩, ?_⟩
  · rw [String.toList_ofList]
    rfl
  · rwa [String.toList_ofList]

/-- **What the reader of names reads** begins in its first class and goes on in its second. -/
theorem spelled_of_name? {p q : Char → Bool} {cs name rest : List Char}
    (h : name? p q cs = some (name, rest)) (hfirst : ∀ c, p c = true → first c = true)
    (hp : ∀ c, p c = true → all c = true) (hq : ∀ c, q c = true → all c = true) :
    Spelled first all (String.ofList name) := by
  cases cs with
  | nil => cases h
  | cons c cs =>
    rw [name?] at h
    split at h
    · next hc =>
      obtain ⟨rfl, -⟩ := Prod.mk.inj (Option.some.inj h)
      refine spelled_cons (hfirst c hc) ?_
      -- one character of the first class, then as many of the second as there are
      rw [List.forall_mem_cons]
      exact ⟨hp c hc, fun d hd => hq d (List.mem_takeWhile_imp hd)⟩
    · cases h

/-! ### Plain names -/

theorem IsPlain.isDotted (h : IsPlain s) : IsDotted s :=
  h.mono (fun _ => id) fun _ => isDottedTail_of_isNameTail

theorem IsPlain.append (h : IsPlain s) (ht : IsPlain t) : IsPlain (s ++ t) :=
  Spelled.append h ht.all

/-- **A plain name is an identifier.** -/
theorem IsPlain.isIdentifier (h : IsPlain s) : Text.isIdentifier s = true := by
  obtain ⟨⟨c, hc, hstart⟩, hall⟩ := h
  unfold Text.isIdentifier
  -- The first character has the class of a start, and the others that of a tail.
  cases hs : s.toList with
  | nil =>
    rw [hs] at hc
    cases hc
  | cons d ds =>
    rw [hs] at hc hall
    obtain rfl : d = c := Option.some.inj hc
    rw [Bool.and_eq_true, Bool.or_eq_true, decide_eq_true_eq, List.all_eq_true]
    refine ⟨isIdentifierStart_of_isNameStart hstart, fun e he => ?_⟩
    exact isIdentifierContinue_of_isNameTail (hall e (List.mem_cons_of_mem _ he))

/-! ### Snake case and Pascal case -/

theorem exists_of_isSnakeIdentifier (h : isSnakeIdentifier s = true) :
    ∃ c cs, s.toList = c :: cs ∧ c.isLower = true ∧ ∀ d ∈ cs, isSnakeTail d = true := by
  unfold isSnakeIdentifier at h
  cases hs : s.toList with
  | nil => simp [hs] at h
  | cons c cs =>
    rw [hs] at h
    simp only [Bool.and_eq_true, List.all_eq_true] at h
    exact ⟨c, cs, rfl, h.1, h.2⟩

theorem exists_of_isPascalIdentifier (h : isPascalIdentifier s = true) :
    ∃ c cs, s.toList = c :: cs ∧ c.isUpper = true ∧ ∀ d ∈ cs, d.isAlphanum = true := by
  unfold isPascalIdentifier at h
  cases hs : s.toList with
  | nil => simp [hs, isPascalList] at h
  | cons c cs =>
    rw [hs, isPascalList] at h
    simp only [Bool.and_eq_true, List.all_eq_true] at h
    exact ⟨c, cs, rfl, h.1, h.2⟩

theorem isPlain_of_isSnakeIdentifier (h : isSnakeIdentifier s = true) : IsPlain s := by
  obtain ⟨c, cs, hs, hlower, hall⟩ := exists_of_isSnakeIdentifier h
  have hstart := isNameStart_of_isLower hlower
  rw [← String.ofList_toList (s := s), hs]
  refine spelled_cons hstart ?_
  rw [List.forall_mem_cons]
  exact ⟨isNameTail_of_isNameStart hstart, fun d hd => isNameTail_of_isSnakeTail (hall d hd)⟩

theorem ne_underscore_of_isSnakeIdentifier (h : isSnakeIdentifier s = true) : s ≠ "_" := by
  rintro rfl
  exact absurd h (by decide)

/-- The pieces of a text hold characters of the text. -/
theorem mem_of_mem_cutList {sep c : Char} {cs piece : List Char}
    (hpiece : piece ∈ Text.cutList sep cs) (hc : c ∈ piece) : c ∈ cs := by
  induction cs generalizing piece with
  | nil =>
    obtain rfl : piece = [] := by simpa [Text.cutList] using hpiece
    cases hc
  | cons d ds ih =>
    rw [Text.cutList, List.foldr_cons] at hpiece
    split at hpiece
    · -- a separator begins an empty piece
      rcases List.mem_cons.mp hpiece with rfl | hpiece
      · cases hc
      · exact List.mem_cons_of_mem _ (ih hpiece hc)
    · split at hpiece
      · obtain rfl : piece = [d] := by simpa using hpiece
        exact List.mem_cons.mpr (.inl (List.mem_singleton.mp hc))
      · next head rest hpieces =>
        -- any other character goes in front of the first piece
        have hhead : head ∈ Text.cutList sep ds := by
          rw [Text.cutList, hpieces]
          exact List.mem_cons_self
        rcases List.mem_cons.mp hpiece with rfl | hpiece
        · rcases List.mem_cons.mp hc with rfl | hc
          · exact List.mem_cons_self
          · exact List.mem_cons_of_mem _ (ih hhead hc)
        · have hrest : piece ∈ Text.cutList sep ds := by
            rw [Text.cutList, hpieces]
            exact List.mem_cons_of_mem _ hpiece
          exact List.mem_cons_of_mem _ (ih hrest hc)

theorem isNameTail_upperFirst (h : ∀ c ∈ s.toList, isNameTail c = true) :
    ∀ c ∈ (Naming.upperFirst s).toList, isNameTail c = true := by
  unfold Naming.upperFirst
  cases hs : s.toList with
  | nil => simp
  | cons d ds =>
    rw [hs, List.forall_mem_cons] at h
    simp only [String.toList_ofList, List.forall_mem_cons]
    exact ⟨isNameTail_toUpper h.1, h.2⟩

theorem isNameTail_pascalCase (h : ∀ c ∈ s.toList, isNameTail c = true) :
    ∀ c ∈ (Naming.pascalCase s).toList, isNameTail c = true := by
  intro d hd
  rw [Naming.pascalCase, String.toList_join, List.mem_flatMap] at hd
  obtain ⟨word, hword, hd⟩ := hd
  obtain ⟨p, hp, rfl⟩ := List.mem_map.mp hword
  obtain ⟨cs, hcs, rfl⟩ := List.mem_map.mp hp
  refine isNameTail_upperFirst (fun e he => ?_) d hd
  rw [String.toList_ofList] at he
  exact h e (mem_of_mem_cutList hcs he)

/-- **A name in snake case is plain in Pascal case too.** -/
theorem isPlain_pascalCase (h : isSnakeIdentifier s = true) : IsPlain (Naming.pascalCase s) := by
  obtain ⟨c, cs, hs, hlower, -⟩ := exists_of_isSnakeIdentifier h
  have hsep : c ≠ '_' := by
    rintro rfl
    exact absurd hlower (by decide)
  obtain ⟨piece, rest, hcut⟩ := Text.cutList_cons cs hsep
  have hupper : c.toUpper.isUpper = true := by simp [Char.isAlpha, hlower]
  refine ⟨⟨c.toUpper, ?_, isNameStart_of_isUpper hupper⟩, ?_⟩
  · -- the first piece holds the first character
    rw [Naming.pascalCase, Text.cut, hs, hcut, List.map_cons, List.map_cons, String.join_cons,
      String.toList_append, Naming.upperFirst, String.toList_ofList]
    simp only [String.toList_ofList, List.cons_append, List.head?_cons]
  · exact isNameTail_pascalCase (isPlain_of_isSnakeIdentifier h).all

/-- **A name in Pascal case is plain in snake case too.** -/
theorem isPlain_handleToSnake (h : isPascalIdentifier s = true) :
    IsPlain (Naming.handleToSnake s) := by
  obtain ⟨c, cs, hs, hupper, hall⟩ := exists_of_isPascalIdentifier h
  have hlower : c.toLower.isLower = true := by simp [Char.isAlpha, hupper]
  have hstart := isNameStart_of_isLower hlower
  rw [Naming.handleToSnake, hs]
  refine spelled_cons hstart ?_
  rw [List.forall_mem_cons]
  refine ⟨isNameTail_of_isNameStart hstart, fun e he => ?_⟩
  obtain ⟨d, hd, he⟩ := List.mem_flatMap.mp he
  have htail := isNameTail_of_isAlphanum (hall d hd)
  -- an upper-case letter becomes two characters, all else is kept
  split at he
  · rcases List.mem_pair.mp he with rfl | rfl
    · rfl
    · exact isNameTail_toLower htail
  · rwa [List.mem_singleton.mp he]

/-! ### Dotted names -/

theorem toList_flatTypeName (s : String) :
    (Naming.flatTypeName s).toList = s.toList.filter (· ≠ '.') := by
  rw [Naming.flatTypeName, Text.replaceChar, Text.substitute, String.toList_ofList]
  induction s.toList with
  | nil => rfl
  | cons c cs ih =>
    rw [List.flatMap_cons, ih]
    by_cases hc : c = '.' <;> simp [hc]

/-- **A dotted name is plain without its dots.** -/
theorem IsDotted.flatTypeName (h : IsDotted s) : IsPlain (Naming.flatTypeName s) := by
  obtain ⟨⟨c, hc, hstart⟩, hall⟩ := h
  have hdot : c ≠ '.' := by
    rintro rfl
    exact absurd hstart (by decide)
  refine ⟨⟨c, ?_, hstart⟩, fun d hd => ?_⟩
  · -- the first character is no dot and stays in front
    rw [toList_flatTypeName]
    cases hs : s.toList with
    | nil =>
      rw [hs] at hc
      cases hc
    | cons d ds =>
      rw [hs] at hc
      obtain rfl : d = c := Option.some.inj hc
      rw [List.filter_cons_of_pos (by simpa using hdot)]
      rfl
  · rw [toList_flatTypeName, List.mem_filter, decide_eq_true_eq] at hd
    have hclass := hall d hd.1
    rw [isDottedTail, Bool.or_eq_true, decide_eq_true_eq] at hclass
    exact hclass.resolve_right hd.2

theorem IsTypeName.isDotted (h : IsTypeName s) : IsDotted s :=
  h.mono (fun _ => isNameStart_of_isAlpha) fun _ => id

/-- The name of a type is more than an underscore. -/
theorem IsTypeName.flatTypeName_ne (h : IsTypeName s) : Naming.flatTypeName s ≠ "_" := by
  obtain ⟨c, hc, halpha⟩ := h.first
  intro hflat
  -- A letter is left when the dots are gone, and the underscore is none.
  have hmem : c ∈ (Naming.flatTypeName s).toList := by
    rw [toList_flatTypeName, List.mem_filter, decide_eq_true_eq]
    refine ⟨List.mem_of_mem_head? hc, ?_⟩
    rintro rfl
    exact absurd halpha (by decide)
  rw [hflat] at hmem
  obtain rfl : c = '_' := by simpa using hmem
  exact absurd halpha (by decide)

/-! ### Names in Rust -/

namespace Rust

/-- **A name that Rust takes**: an identifier, or one that is written raw already. -/
def IsName (s : String) : Prop :=
  Text.isIdentifier s = true ∨
    ∃ word, s = rawMark ++ word ∧ Text.isIdentifier word = true ∧ word ∉ "_" :: pathWords

theorem isIdentifier_rawMark (word : String) : Text.isIdentifier (rawMark ++ word) = false := by
  have hs : (rawMark ++ word).toList = 'r' :: '#' :: word.toList := by
    rw [String.toList_append]
    rfl
  rw [Text.isIdentifier, hs]
  simp [show Text.isIdentifierContinue '#' = false by decide]

theorem succeeds_literalName_iff : Succeeds (literalName s) ↔ IsName s := by
  unfold literalName IsName
  cases hraw : Text.dropPrefix? rawMark s with
  | some word =>
    -- what is marked raw is no identifier as a whole, so only the word behind the mark counts
    obtain rfl := Text.dropPrefix?_eq_some_iff.mp hraw
    have hword : (∃ w, rawMark ++ word = rawMark ++ w ∧ Text.isIdentifier w = true ∧
        w ∉ "_" :: pathWords) ↔ Text.isIdentifier word = true ∧ word ∉ "_" :: pathWords := by
      constructor
      · rintro ⟨w, hw, h⟩
        obtain rfl : word = w := (String.append_right_inj rawMark).mp hw
        exact h
      · intro h
        exact ⟨word, rfl, h⟩
    rw [hword, isIdentifier_rawMark, succeeds_ite_iff]
    simp
  | none =>
    have hnot : ¬ ∃ word, s = rawMark ++ word ∧ Text.isIdentifier word = true ∧
        word ∉ "_" :: pathWords := by
      rintro ⟨word, hs, -⟩
      rw [Text.dropPrefix?_eq_some_iff.mpr hs] at hraw
      cases hraw
    rw [or_iff_left hnot, succeeds_ite_iff]

/-- The words that get another spelling are identifiers as they are. -/
theorem isIdentifier_of_mem_words :
    ∀ word ∈ pathWords ++ keywords, Text.isIdentifier word = true := by decide

/-- **Choosing a name succeeds exactly for the names that Rust takes.** -/
theorem succeeds_chosenName_iff : Succeeds (chosenName s) ↔ IsName s := by
  -- keywords and path words are identifiers themselves, so their other spelling changes nothing
  have hwords : ∀ {words : List String}, words ⊆ pathWords ++ keywords →
      words.contains s = true → IsName s := fun hsub h =>
    .inl (isIdentifier_of_mem_words s (hsub (List.contains_iff_mem.mp h)))
  unfold chosenName
  split
  · next h => exact iff_of_true succeeds_ok (hwords (List.subset_append_left _ _) h)
  · split
    · next h => exact iff_of_true succeeds_ok (hwords (List.subset_append_right _ _) h)
    · exact succeeds_literalName_iff

theorem succeeds_typeName_iff : Succeeds (typeName s) ↔ IsName (Naming.flatTypeName s) :=
  succeeds_chosenName_iff

/-- Only a lone underscore is chosen for a lone underscore. -/
theorem eq_underscore_iff_of_chosenName {ident : String} (h : chosenName s = .ok ident) :
    ident = "_" ↔ s = "_" := by
  obtain rfl := eq_escaped_of_chosenName h
  constructor
  · intro hs
    unfold escaped at hs
    split at hs
    · next hpath =>
      -- no word that gets an underscore is empty
      have hne : ∀ word ∈ pathWords, word ++ "_" ≠ "_" := by decide
      exact absurd hs (hne s hpath)
    · split at hs
      · have hhead := congrArg (fun t => t.toList.head?) hs
        simp [rawMark] at hhead
      · exact hs
  · rintro rfl
    decide

end Rust

theorem IsPlain.isName (h : IsPlain s) : Rust.IsName s := .inl h.isIdentifier

end Bindery
