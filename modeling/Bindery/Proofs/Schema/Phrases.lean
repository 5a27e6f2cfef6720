import Bindery.Proofs.Names.Basic
import Bindery.Proofs.Schema.Grammar
import Bindery.Proofs.Text

/-!
# Reading phrases of the schema language

Each reader takes what was written and leaves what follows, provided that what follows cannot be
taken for more of it. A class of characters stops where none of its members comes next (`Stops`);
the classes that follow one another in a phrase have no character in common, so every reader stops
where the part that it reads ends.

* `namespaceOf?_scope`, `headerOf?_header` — the phrases at the beginning of a line;
* `enumItems_pieces`, `numberFrom_items` — the values on a line and their numbers;
* `fieldAt?_body`, `fieldsIn_fields` — the fields on a line.
-/

namespace Bindery.Schema.Source

open Text (isBlank isWord isDecimalDigit trimList cutList cutList_eq_splitOn dropPrefixList?
  dropPrefixList?_eq_some_iff)

/-! ### Classes of characters -/

/-- Whether a class of characters ends where a text begins. -/
def Stops (p : Char → Bool) (tail : List Char) : Prop := ∀ c ∈ tail.head?, p c = false

section Stops

variable {p first rest : Char → Bool} {tail : List Char}

theorem stops_nil : Stops p [] := nofun

theorem stops_cons {c : Char} (h : p c = false) : Stops p (c :: tail) := by
  rintro d hd
  obtain rfl := Option.some.inj hd
  exact h

theorem takeWhile_eq_nil (h : Stops p tail) : tail.takeWhile p = [] := by
  cases tail with
  | nil => rfl
  | cons c tail => rw [List.takeWhile_cons, if_neg (by simp [h c rfl])]

theorem dropWhile_eq_self (h : Stops p tail) : tail.dropWhile p = tail := by
  cases tail with
  | nil => rfl
  | cons c tail => rw [List.dropWhile_cons, if_neg (by simp [h c rfl])]

theorem stops_of_forall (h : ∀ c ∈ tail, p c = false) : Stops p tail :=
  fun c hc => h c (List.mem_of_mem_head? hc)

/-- A class takes its members up to where it stops. -/
theorem takeWhile_append {cs : List Char} (hcs : ∀ c ∈ cs, p c = true) (h : Stops p tail) :
    (cs ++ tail).takeWhile p = cs := by
  rw [List.takeWhile_append_of_pos hcs, takeWhile_eq_nil h, List.append_nil]

theorem dropWhile_append {cs : List Char} (hcs : ∀ c ∈ cs, p c = true) (h : Stops p tail) :
    (cs ++ tail).dropWhile p = tail := by
  rw [List.dropWhile_append_of_pos hcs, dropWhile_eq_self h]

theorem Gap.eq_or_eq (g : Gap) {c : Char} (hc : c ∈ g.chars) : c = ' ' ∨ c = '\t' := by
  have h := g.blank c hc
  rwa [isGap, Bool.or_eq_true, decide_eq_true_eq, decide_eq_true_eq] at h

/-- What is free of a character ends where that character comes. -/
theorem takeWhile_ne {c : Char} {cs : List Char} (h : c ∉ cs) (tail : List Char) :
    (cs ++ c :: tail).takeWhile (· ≠ c) = cs :=
  takeWhile_append (fun _ hd => decide_eq_true (ne_of_mem_of_not_mem hd h)) (stops_cons (by simp))

theorem dropWhile_ne {c : Char} {cs : List Char} (h : c ∉ cs) (tail : List Char) :
    (cs ++ c :: tail).dropWhile (· ≠ c) = c :: tail :=
  dropWhile_append (fun _ hd => decide_eq_true (ne_of_mem_of_not_mem hd h)) (stops_cons (by simp))

/-- A class that blanks are not in stops at blanks. -/
theorem Stops.gap (hspace : p ' ' = false) (htab : p '\t' = false) (h : Stops p tail) (g : Gap) :
    Stops p (g.chars ++ tail) := by
  cases hg : g.chars with
  | nil => exact h
  | cons c cs =>
    rcases g.eq_or_eq (c := c) (hg ▸ List.mem_cons_self) with rfl | rfl
    · exact stops_cons hspace
    · exact stops_cons htab

theorem stops_gap (hspace : p ' ' = false) (htab : p '\t' = false) (g : Gap) : Stops p g.chars := by
  have h := Stops.gap hspace htab stops_nil g
  rwa [List.append_nil] at h

theorem stops_name (h : ∀ c, first c = true → p c = false) (n : Name first rest)
    (tail : List Char) : Stops p (n.chars ++ tail) :=
  stops_cons (h n.head n.isFirst)

end Stops

/-- Blanks are in no name. -/
theorem isBlank_eq_false {c : Char} (h : isDottedTail c = true) : isBlank c = false := by
  -- Blanks lie below the visible characters or beyond the first half of a byte.
  have hbounds : 0x2D < c.toNat ∧ c.toNat < 0x7F := by
    simp only [isDottedTail, isNameTail, Bool.or_eq_true, decide_eq_true_eq] at h
    obtain (h | rfl) | rfl := h
    · have := Text.toNat_of_isAlphanum h
      omega
    all_goals decide
  have hspace : c ≠ ' ' := by
    rintro rfl
    exact absurd hbounds (by decide)
  have hlow : ¬ c.toNat ≤ 0x0D := by omega
  have hhigh : ¬ 128 ≤ c.toNat := by omega
  simp [isBlank, hspace, hlow, hhigh]

theorem isBlank_of_gap {g : Gap} : ∀ c ∈ g.chars, isBlank c = true := by
  intro c hc
  rcases g.eq_or_eq hc with rfl | rfl <;> decide

theorem isDottedTail_of_isNameStart {c : Char} (h : isNameStart c = true) :
    isDottedTail c = true :=
  isDottedTail_of_isNameTail (isNameTail_of_isNameStart h)

theorem isNameStart_of_isFieldStart {c : Char} (h : isFieldStart c = true) :
    isNameStart c = true := by
  rw [isFieldStart, Bool.or_eq_true] at h
  exact h.elim isNameStart_of_isLower fun h => by simp [isNameStart, h]

theorem isNameTail_of_isDigit {c : Char} (h : c.isDigit = true) : isNameTail c = true :=
  isNameTail_of_isAlphanum (by simp [Char.isAlphanum, h])

/-- A character that is in no blank, name or number, and that is no sign of a phrase but the
comma. -/
def isForeign (c : Char) : Bool :=
  !isDottedTail c && c ∉ ['\t', ' ', '-', '=', ':', ';', '[', ']']

section Foreign

variable {first rest : Char → Bool} {d : Char}

theorem Gap.not_mem (g : Gap) (hspace : d ≠ ' ') (htab : d ≠ '\t') : d ∉ g.chars := by
  intro hd
  rcases g.eq_or_eq hd with h | h
  · exact hspace h
  · exact htab h

theorem Name.not_mem (n : Name first rest) (hfirst : first d = false) (hrest : rest d = false) :
    d ∉ n.chars := by
  intro hd
  rcases List.mem_cons.mp hd with rfl | hd
  · simp [n.isFirst] at hfirst
  · simp [n.isRest d hd] at hrest

theorem ne_of_isForeign (h : isForeign d = true) :
    isDottedTail d = false ∧ d ≠ '\t' ∧ d ≠ ' ' ∧ d ≠ '-' ∧ d ≠ '=' ∧ d ≠ ':' ∧ d ≠ ';' ∧ d ≠ '[' ∧
      d ≠ ']' := by
  simpa [isForeign] using h

theorem Gap.not_mem_of_isForeign (g : Gap) (h : isForeign d = true) : d ∉ g.chars := by
  obtain ⟨-, htab, hspace, -⟩ := ne_of_isForeign h
  exact g.not_mem hspace htab

theorem Name.not_mem_of_isForeign (n : Name first rest) (h : isForeign d = true)
    (hfirst : ∀ c, first c = true → isDottedTail c = true)
    (hrest : ∀ c, rest c = true → isDottedTail c = true) : d ∉ n.chars := by
  obtain ⟨hd, -⟩ := ne_of_isForeign h
  refine n.not_mem ?_ ?_
  · exact Bool.eq_false_iff.mpr fun h => by simp [hfirst d h] at hd
  · exact Bool.eq_false_iff.mpr fun h => by simp [hrest d h] at hd

theorem Number.not_mem_of_isForeign (n : Number) (h : isForeign d = true) : d ∉ n.chars := by
  obtain ⟨hd, -, -, hminus, -⟩ := ne_of_isForeign h
  have hdigits : d ∉ n.digits := fun hmem => by
    simp [isDottedTail_of_isNameTail (isNameTail_of_isDigit (n.decimal d hmem))] at hd
  unfold Number.chars
  split
  · simp [hminus, hdigits]
  · exact hdigits

end Foreign

/-! ### Blanks and names -/

section Readers

variable {first rest : Char → Bool} {tail : List Char}

theorem skipBlanks_gap (g : Gap) (h : Stops isBlank tail) : skipBlanks (g.chars ++ tail) = tail :=
  dropWhile_append isBlank_of_gap h

theorem skipBlanks_gap_nil (g : Gap) : skipBlanks g.chars = [] := by
  have h := skipBlanks_gap g stops_nil
  rwa [List.append_nil] at h

theorem someBlanks?_gap {g : Gap} (hg : g.chars ≠ []) (h : Stops isBlank tail) :
    someBlanks? (g.chars ++ tail) = some tail := by
  have hskip := skipBlanks_gap g h
  obtain ⟨c, cs, hcs⟩ := List.exists_cons_of_ne_nil hg
  have hc : isBlank c = true := isBlank_of_gap c (hcs ▸ List.mem_cons_self)
  rw [hcs, List.cons_append, skipBlanks, List.dropWhile_cons, if_pos hc] at hskip
  rw [hcs, List.cons_append, someBlanks?, if_pos hc, skipBlanks, hskip]

/-- **A name is read up to its end.** -/
theorem name?_append (n : Name first rest) (h : Stops rest tail) :
    name? first rest (n.chars ++ tail) = some (n.chars, tail) := by
  rw [Name.chars, List.cons_append, name?, if_pos n.isFirst, takeWhile_append n.isRest h,
    dropWhile_append n.isRest h]

theorem dropPrefixList?_append (start tail : List Char) :
    dropPrefixList? start (start ++ tail) = some tail :=
  dropPrefixList?_eq_some_iff.mpr rfl

theorem isBlank_of_isNameStart {c : Char} (h : isNameStart c = true) : isBlank c = false :=
  isBlank_eq_false (isDottedTail_of_isNameStart h)

end Readers

/-! ### Namespaces and headers -/

theorem isBlank_of_isAlpha {c : Char} (h : c.isAlpha = true) : isBlank c = false :=
  isBlank_of_isNameStart (isNameStart_of_isAlpha h)

theorem isBlank_of_isUpper {c : Char} (h : c.isUpper = true) : isBlank c = false :=
  isBlank_of_isNameStart (isNameStart_of_isUpper h)

/-- **A namespace is read from its line.** -/
theorem namespaceOf?_scope (s : ScopeText) : namespaceOf? s.chars = some s.name.text := by
  -- The text is cut at the keyword, the blanks, the name and the semicolon, each of which is read
  -- back.
  have hlead : skipBlanks s.chars = "namespace".toList ++ (s.apart.chars ++ (s.name.chars ++
      (s.behind.chars ++ ';' :: s.ending.chars))) :=
    skipBlanks_gap s.lead (stops_cons (by decide))
  have hbehind : Stops isDottedTail (s.behind.chars ++ ';' :: s.ending.chars) :=
    Stops.gap rfl rfl (stops_cons rfl) s.behind
  have hapart := someBlanks?_gap s.isApart (stops_name (fun _ => isBlank_of_isAlpha) s.name
    (s.behind.chars ++ ';' :: s.ending.chars))
  have hend : skipBlanks (s.behind.chars ++ ';' :: s.ending.chars) = ';' :: s.ending.chars :=
    skipBlanks_gap s.behind (stops_cons (by decide))
  simp only [namespaceOf?, hlead, dropPrefixList?_append, hapart, name?_append s.name hbehind, hend,
    Option.bind_eq_bind, Option.bind_some]
  rfl

/-- A line that does not begin with an `n` declares no namespace. -/
theorem namespaceOf?_eq_none {line tail : List Char} {c : Char} (h : skipBlanks line = c :: tail)
    (hc : c ≠ 'n') : namespaceOf? line = none := by
  have hdrop : dropPrefixList? "namespace".toList (c :: tail) = none := if_neg (Ne.symm hc)
  rw [namespaceOf?, h, hdrop]
  rfl

/-- A keyword is read, whatever follows it. -/
theorem keyword?_append (k : TypeKind) (tail : List Char) :
    keyword? (k.name.toList ++ tail) = some (k, tail) := by
  cases k <;> rfl

theorem isWord_of_isNameTail {c : Char} (h : isNameTail c = true) : isWord c = true := by
  rw [isNameTail] at h
  rw [isWord, h, Bool.true_or]

theorem isBlank_of_isNameTail {c : Char} (h : isNameTail c = true) : isBlank c = false :=
  isBlank_eq_false (isDottedTail_of_isNameTail h)

/-- Whether nothing comes next, or an opening brace. -/
def Opening (tail : List Char) : Prop := ∀ c ∈ tail.head?, c = '\x7b'

theorem opening_nil : Opening [] := nofun

theorem opening_cons (tail : List Char) : Opening ('\x7b' :: tail) := fun _ hc =>
  (Option.some.inj hc).symm

/-- A class that the brace is not in stops there. -/
theorem Opening.stops {tail : List Char} (h : Opening tail) {p : Char → Bool}
    (hp : p '\x7b' = false) : Stops p tail := fun c hc => by rw [h c hc, hp]

/-- **The scalar of an enumeration is read** where one is named. -/
theorem baseOf?_baseText (d : Definition) {tail : List Char} (htail : Opening tail) :
    baseOf? (d.baseText ++ tail) = d.base.map fun b => b.2.2.text := by
  cases h : d.base with
  | none =>
    rw [Definition.baseText, h, baseOf?, skipBlanks_gap d.behind (htail.stops rfl)]
    split
    next => exact absurd (htail ':' rfl) (by decide)
    next => rfl
  | some b =>
    obtain ⟨before, after, word⟩ := b
    have hbehind : Stops isWord (d.behind.chars ++ tail) :=
      Stops.gap rfl rfl (htail.stops rfl) d.behind
    -- the reader takes the letters of every script, those of ASCII among them
    let wide : Name isWord isWord :=
      ⟨word.head, word.tail, isWord_of_isNameTail word.isFirst,
        fun c hc => isWord_of_isNameTail (word.isRest c hc)⟩
    have hword : name? isWord isWord (word.chars ++ (d.behind.chars ++ tail)) =
        some (word.chars, d.behind.chars ++ tail) := name?_append wide hbehind
    rw [Definition.baseText, h]
    simp only [List.append_assoc, List.cons_append]
    rw [baseOf?, skipBlanks_gap before (stops_cons rfl)]
    simp only [skipBlanks_gap after (stops_name (fun _ => isBlank_of_isNameTail) _ _), hword]
    rfl

/-- The text after the name of a definition does not go on with the name. -/
theorem stops_baseText (d : Definition) {tail : List Char} (htail : Opening tail) :
    Stops Char.isAlphanum (d.baseText ++ tail) := by
  unfold Definition.baseText
  split
  · exact Stops.gap rfl rfl (htail.stops rfl) d.behind
  · rw [List.append_assoc]
    exact Stops.gap rfl rfl (stops_cons rfl) _

theorem skipBlanks_header (d : Definition) (tail : List Char) :
    skipBlanks (d.header ++ tail) =
      d.kind.name.toList ++ (d.apart.chars ++ (d.name.chars ++ (d.baseText ++ tail))) := by
  have hstop : ∀ t, Stops isBlank (d.kind.name.toList ++ t) := by
    intro t
    cases d.kind <;> exact stops_cons (by decide)
  have heq : d.header ++ tail = d.lead.chars ++ (d.kind.name.toList ++ (d.apart.chars ++
      (d.name.chars ++ (d.baseText ++ tail)))) := by
    simp only [Definition.header, List.append_assoc]
  rw [heq, skipBlanks_gap d.lead (hstop _)]

/-- **The header of a definition is read from its line**, if the line ends with it or the opening
brace is next. -/
theorem headerOf?_header (d : Definition) {tail : List Char} (htail : Opening tail) :
    headerOf? (d.header ++ tail) =
      some ⟨d.kind, d.name.text, d.base.map fun b => b.2.2.text⟩ := by
  have hapart := someBlanks?_gap d.isApart (stops_name (fun _ => isBlank_of_isUpper) d.name
    (d.baseText ++ tail))
  simp only [headerOf?, skipBlanks_header, keyword?_append, hapart,
    name?_append d.name (stops_baseText d htail), baseOf?_baseText d htail, Option.bind_eq_bind,
    Option.bind_some]
  rfl

/-- A header declares no namespace. -/
theorem namespaceOf?_header (d : Definition) (tail : List Char) :
    namespaceOf? (d.header ++ tail) = none := by
  have h := skipBlanks_header d tail
  cases hk : d.kind <;> rw [hk] at h <;> exact namespaceOf?_eq_none h (by decide)

/-! ### Values -/

section Values

theorem isDecimalDigit_of_isDigit {c : Char} (h : c.isDigit = true) : isDecimalDigit c = true := by
  rw [isDecimalDigit, h, Bool.true_or]

theorem isBlank_of_isDigit {c : Char} (h : c.isDigit = true) : isBlank c = false :=
  isBlank_of_isNameTail (isNameTail_of_isDigit h)

theorem int64Of?_digits (n : Number) : int64Of? n.negative n.digits = some n.value := by
  rw [int64Of?, if_pos (List.all_eq_true.mpr n.decimal)]
  exact if_pos n.inRange

/-- **A number is read** with its sign. -/
theorem numberOf?_chars (before : Gap) (n : Number) (after : Gap) :
    numberOf? (before.chars ++ (n.chars ++ after.chars)) = some (some n.value, after.chars) := by
  obtain ⟨c, cs, hcs⟩ := List.exists_cons_of_ne_nil n.nonempty
  have hc : c.isDigit = true := n.decimal c (hcs ▸ List.mem_cons_self)
  have hdigits : ∀ d ∈ c :: cs, isDecimalDigit d = true := fun d hd =>
    isDecimalDigit_of_isDigit (n.decimal d (hcs ▸ hd))
  -- the gap behind it ends the digits
  have hafter : Stops isDecimalDigit after.chars := stops_gap rfl rfl after
  have htake := takeWhile_append hdigits hafter
  have hdrop := dropWhile_append hdigits hafter
  have hint := int64Of?_digits n
  rw [hcs] at hint
  rw [Number.chars, hcs]
  cases hn : n.negative with
  | false =>
    have hskip : skipBlanks (before.chars ++ (c :: cs ++ after.chars)) = c :: cs ++ after.chars :=
      skipBlanks_gap before (stops_cons (isBlank_of_isDigit hc))
    -- a digit is no sign
    have hminus : c ≠ '-' := by
      rintro rfl
      cases hc
    rw [List.cons_append] at hskip htake hdrop
    rw [if_neg Bool.false_ne_true, numberOf?, List.cons_append, hskip]
    rw [hn] at hint
    simp [hminus, htake, hdrop, hint]
  | true =>
    have hskip : skipBlanks (before.chars ++ ('-' :: (c :: cs) ++ after.chars)) =
        '-' :: (c :: cs ++ after.chars) := skipBlanks_gap before (stops_cons rfl)
    rw [if_pos rfl, numberOf?, hskip]
    rw [hn] at hint
    simp only [htake, hdrop, hint]

/-- **A value is read** with the number that it names. -/
theorem enumItemOf?_chars (e : Enumerator) :
    enumItemOf? e.chars = some ⟨e.name.text, e.number?⟩ := by
  have hlead : ∀ t, skipBlanks (e.lead.chars ++ (e.name.chars ++ t)) = e.name.chars ++ t :=
    fun t => skipBlanks_gap e.lead (stops_name (fun _ => isBlank_of_isNameStart) _ _)
  rw [Enumerator.chars, Enumerator.number?]
  cases e.number with
  | none =>
    have hname : name? isNameStart isNameTail (e.name.chars ++ e.behind.chars) =
        some (e.name.chars, e.behind.chars) := name?_append e.name (stops_gap rfl rfl _)
    simp only [enumItemOf?, hlead, hname, Option.bind_eq_bind, Option.bind_some, List.append_nil,
      skipBlanks_gap_nil]
    rfl
  | some n =>
    obtain ⟨before, n, after⟩ := n
    -- the name ends at the gap or at the equals sign
    have hstop : Stops isNameTail (e.behind.chars ++
        '=' :: (before.chars ++ (n.chars ++ after.chars))) :=
      Stops.gap rfl rfl (stops_cons rfl) _
    have hbehind : skipBlanks
        (e.behind.chars ++ '=' :: (before.chars ++ (n.chars ++ after.chars))) =
          '=' :: (before.chars ++ (n.chars ++ after.chars)) :=
      skipBlanks_gap e.behind (stops_cons rfl)
    simp only [enumItemOf?, hlead, name?_append e.name hstop, hbehind, numberOf?_chars,
      Option.bind_eq_bind, Option.bind_some, skipBlanks_gap_nil]
    rfl

theorem enumItemOf?_gap (g : Gap) : enumItemOf? g.chars = none := by
  rw [enumItemOf?, skipBlanks_gap_nil]
  rfl

/-- The item that a value is read as. -/
def Enumerator.item (e : Enumerator) : EnumItem := ⟨e.name.text, e.number?⟩

theorem enumItemOf?_piece (p : Piece) :
    enumItemOf? p.chars = p.enumerator?.map Enumerator.item := by
  cases p with
  | blank gap => exact enumItemOf?_gap gap
  | value e => exact enumItemOf?_chars e

theorem Enumerator.not_mem_of_isForeign {d : Char} (e : Enumerator) (h : isForeign d = true) :
    d ∉ e.chars := by
  obtain ⟨-, -, -, -, hequals, -⟩ := ne_of_isForeign h
  have hname := e.name.not_mem_of_isForeign h (fun _ => isDottedTail_of_isNameStart)
    fun _ => isDottedTail_of_isNameTail
  rw [Enumerator.chars]
  cases e.number with
  | none => simp [e.lead.not_mem_of_isForeign h, e.behind.not_mem_of_isForeign h, hname]
  | some n =>
    simp [e.lead.not_mem_of_isForeign h, e.behind.not_mem_of_isForeign h, hname, hequals,
      n.1.not_mem_of_isForeign h, n.2.1.not_mem_of_isForeign h, n.2.2.not_mem_of_isForeign h]

theorem Piece.not_mem_of_isForeign {d : Char} (p : Piece) (h : isForeign d = true) :
    d ∉ p.chars := by
  cases p with
  | blank gap => exact gap.not_mem_of_isForeign h
  | value e => exact e.not_mem_of_isForeign h

/-- The items around a comma. -/
theorem enumItems_comma (cs tail : List Char) :
    enumItems (cs ++ ',' :: tail) = enumItems cs ++ enumItems tail := by
  simp only [enumItems, cutList_eq_splitOn, List.splitOn_append_cons_self, List.filterMap_append]

/-- A text without a comma is one item, or none. -/
theorem enumItems_of_not_mem {piece : List Char} (h : ',' ∉ piece) :
    enumItems piece = (enumItemOf? piece).toList := by
  rw [enumItems, cutList_eq_splitOn, List.splitOn_eq_singleton h, List.filterMap_cons]
  cases enumItemOf? piece <;> rfl

/-- **The values between commas are read in order.** -/
theorem enumItems_pieces (pieces : List Piece) :
    enumItems ([','].intercalate (pieces.map Piece.chars)) =
      (pieces.filterMap Piece.enumerator?).map Enumerator.item := by
  rw [enumItems, cutList_eq_splitOn]
  cases pieces with
  | nil => rfl
  | cons p ps =>
    have hcomma : ∀ cs ∈ (p :: ps).map Piece.chars, ',' ∉ cs := by
      intro cs hcs
      obtain ⟨q, -, rfl⟩ := List.mem_map.mp hcs
      exact q.not_mem_of_isForeign (by decide)
    rw [List.splitOn_intercalate ',' hcomma (by simp), List.filterMap_map, List.map_filterMap]
    exact List.filterMap_congr fun q _ => enumItemOf?_piece q

/-- Values are numbered as their items are. -/
theorem numberFrom_items (next : Int) (es : List Enumerator) :
    numberFrom next (es.map Enumerator.item) = valuesFrom next es := by
  induction es generalizing next with
  | nil => rfl
  | cons e es ih => rw [List.map_cons, numberFrom, valuesFrom, ih]; rfl

theorem nextNumber_cons (next : Int) (v : EnumValue) (vs : List EnumValue) :
    nextNumber next (v :: vs) = nextNumber (v.value + 1) vs := by
  cases vs with
  | nil => rfl
  | cons w ws => rfl

theorem nextNumber_values (next : Int) (es : List Enumerator) :
    nextNumber next (valuesFrom next es) = numberAfter next es := by
  induction es generalizing next with
  | nil => rfl
  | cons e es ih => rw [valuesFrom, nextNumber_cons, ih, numberAfter]

/-- Values on several lines are numbered across them. -/
theorem valuesFrom_append (next : Int) (es fs : List Enumerator) :
    valuesFrom next (es ++ fs) = valuesFrom next es ++ valuesFrom (numberAfter next es) fs := by
  induction es generalizing next with
  | nil => rfl
  | cons e es ih => rw [List.cons_append, valuesFrom, ih, valuesFrom, numberAfter, List.cons_append]

theorem numberAfter_append (next : Int) (es fs : List Enumerator) :
    numberAfter next (es ++ fs) = numberAfter (numberAfter next es) fs := by
  induction es generalizing next with
  | nil => rfl
  | cons e es ih => rw [List.cons_append, numberAfter, ih, numberAfter]

end Values

/-! ### Fields -/

section Fields

variable {tail : List Char}

theorem Reference.not_mem_of_isForeign {d : Char} (n : Reference) (h : isForeign d = true) :
    d ∉ n.chars :=
  Name.not_mem_of_isForeign n h (fun _ => isDottedTail_of_isNameStart) fun _ => id

theorem Reference.head_ne (n : Reference) : n.head ≠ '[' := by
  intro hc
  have hfirst := n.isFirst
  rw [hc] at hfirst
  cases hfirst

/-- The text up to a bracket is read with the bracket. -/
theorem closeBracket?_append {inner : List Char} (hne : inner ≠ []) (hclosed : ']' ∉ inner)
    (tail : List Char) : closeBracket? (inner ++ ']' :: tail) = some (inner ++ [']'], tail) := by
  simp only [closeBracket?, dropWhile_ne hclosed, takeWhile_ne hclosed, if_neg hne]

/-- What stands between the brackets of a vector. -/
theorem not_mem_inner (before behind : Gap) (element : Reference) :
    ']' ∉ before.chars ++ (element.chars ++ behind.chars) := by
  simp [before.not_mem (d := ']') (by decide) (by decide),
    behind.not_mem (d := ']') (by decide) (by decide),
    element.not_mem (d := ']') (by decide) (by decide)]

/-- **The text of a type is read up to its end.** -/
theorem typeText?_chars (t : Spelling) (h : Stops isDottedTail tail) :
    typeText? (t.chars ++ tail) = some (t.chars, tail) := by
  cases t with
  | plain name =>
    rw [Spelling.chars, ← name?_append name h, Name.chars, List.cons_append, typeText?]
    intro cs hcs
    exact Reference.head_ne name (List.cons.inj hcs).1
  | vector before element behind =>
    have hne : before.chars ++ (element.chars ++ behind.chars) ≠ [] := by simp [Name.chars]
    have hclose := closeBracket?_append hne (not_mem_inner before behind element) tail
    simp only [List.append_assoc] at hclose
    simp only [Spelling.chars, List.append_assoc, List.cons_append, List.nil_append, typeText?,
      hclose, Option.map_some]

theorem bracketed?_name (n : Reference) : bracketed? n.chars = none := by
  rw [bracketed?, Name.chars, dropPrefixList?, if_neg (Ne.symm (Reference.head_ne n))]

theorem bracketed?_append (inner : List Char) :
    bracketed? ('[' :: (inner ++ [']'])) = some inner := by
  simp [bracketed?, dropPrefixList?]

theorem ofList_name (n : Reference) : FieldType.ofList n.chars = n.type := by
  rw [FieldType.ofList, bracketed?_name]
  rfl

/-- Blanks around a name are cut off. -/
theorem trimList_name (before behind : Gap) (n : Reference) :
    trimList (before.chars ++ (n.chars ++ behind.chars)) = n.chars := by
  -- Blanks are cut from both ends, and neither end of a name is blank.
  have hchars : ∀ c ∈ n.chars.reverse, isBlank c = false := by
    intro c hc
    rcases List.mem_cons.mp (List.mem_reverse.mp hc) with rfl | hc
    · exact isBlank_of_isNameStart n.isFirst
    · exact isBlank_eq_false (n.isRest c hc)
  have hbehind : ∀ c ∈ behind.chars.reverse, isBlank c = true := fun c hc =>
    isBlank_of_gap c (List.mem_reverse.mp hc)
  have hfront : (before.chars ++ (n.chars ++ behind.chars)).dropWhile isBlank =
      n.chars ++ behind.chars :=
    skipBlanks_gap before (stops_name (fun _ => isBlank_of_isNameStart) _ _)
  rw [trimList, hfront, List.reverse_append, dropWhile_append hbehind (stops_of_forall hchars),
    List.reverse_reverse]

/-- **A type is read as what its name stands for.** -/
theorem ofList_chars (t : Spelling) : FieldType.ofList t.chars = t.type := by
  cases t with
  | plain name => exact ofList_name name
  | vector before element behind =>
    have hbracketed := bracketed?_append (before.chars ++ (element.chars ++ behind.chars))
    simp only [List.append_assoc] at hbracketed
    rw [FieldType.ofList, Spelling.chars, hbracketed]
    dsimp only
    rw [trimList_name, ofList_name, Spelling.type]

theorem after?_append {c : Char} {cs : List Char} (h : c ∉ cs) (tail : List Char) :
    after? c (cs ++ c :: tail) = some tail := by
  simp only [after?, dropWhile_ne h]

theorem isBlank_of_isFieldStart {c : Char} (h : isFieldStart c = true) : isBlank c = false :=
  isBlank_of_isNameStart (isNameStart_of_isFieldStart h)

/-- What stands behind a type does not go on with it. -/
theorem FieldText.stops_extra (f : FieldText) (tail : List Char) :
    Stops isDottedTail (f.extra.chars ++ ';' :: tail) := by
  have happart := f.apart
  cases h : f.extra.chars with
  | nil => exact stops_cons rfl
  | cons c cs =>
    rw [h] at happart
    exact stops_cons happart

/-- The text of a type begins with no blank. -/
theorem stops_spelling (t : Spelling) (tail : List Char) : Stops isBlank (t.chars ++ tail) := by
  cases t with
  | plain name => exact stops_name (fun _ => isBlank_of_isNameStart) name tail
  | vector _ _ _ => exact stops_cons (by decide)

theorem colon?_append (before after : Gap) (t : Spelling) (tail : List Char) :
    colon? (before.chars ++ ':' :: (after.chars ++ (t.chars ++ tail))) =
      some (t.chars ++ tail) := by
  have hbefore : skipBlanks (before.chars ++ ':' :: (after.chars ++ (t.chars ++ tail))) =
      ':' :: (after.chars ++ (t.chars ++ tail)) := skipBlanks_gap before (stops_cons (by decide))
  simp only [colon?, hbefore, skipBlanks_gap after (stops_spelling t tail)]

/-- **A field is read up to its semicolon.** -/
theorem fieldAt?_body (f : FieldText) (tail : List Char) :
    fieldAt? (f.body ++ tail) = some (f.field, tail) := by
  have hname : ∀ t, name? (fun c => c.isLower || c = '_') isNameTail
      (f.name.chars ++ (f.beforeColon.chars ++ ':' :: t)) =
        some (f.name.chars, f.beforeColon.chars ++ ':' :: t) :=
    fun t => name?_append f.name (Stops.gap rfl rfl (stops_cons rfl) _)
  simp only [fieldAt?, FieldText.body, List.append_assoc, List.cons_append, List.nil_append, hname,
    colon?_append, typeText?_chars f.type (f.stops_extra tail), after?_append f.unended,
    ofList_chars, Option.bind_eq_bind, Option.bind_some]
  rfl

/-- No field begins with a blank. -/
theorem fieldAt?_eq_none {c : Char} (h : isFieldStart c = false) (cs : List Char) :
    fieldAt? (c :: cs) = none := by
  have hname : name? (fun c => c.isLower || c = '_') isNameTail (c :: cs) = none :=
    if_neg (Bool.eq_false_iff.mp h)
  rw [fieldAt?, hname]
  rfl

/-- Blanks in front of a field are passed over. -/
theorem fieldsIn_gap (g : Gap) (tail : List Char) : fieldsIn (g.chars ++ tail) = fieldsIn tail := by
  obtain ⟨cs, hcs⟩ := g
  induction cs with
  | nil => rfl
  | cons c cs ih =>
    obtain ⟨hc, hrest⟩ := List.forall_mem_cons.mp hcs
    -- Nothing in a gap begins a field, so the search goes on behind it.
    have hstart : isFieldStart c = false := by
      rw [isGap, Bool.or_eq_true, decide_eq_true_eq, decide_eq_true_eq] at hc
      rcases hc with rfl | rfl <;> rfl
    have hnone := fieldAt?_eq_none hstart (cs ++ tail)
    rw [List.cons_append, fieldsIn]
    split
    next h => rw [hnone] at h; cases h
    next => exact ih hrest

theorem fieldsIn_append (f : FieldText) (tail : List Char) :
    fieldsIn (f.chars ++ tail) = f.field :: fieldsIn tail := by
  have hfield := fieldAt?_body f tail
  rw [FieldText.chars, List.append_assoc, fieldsIn_gap]
  rw [FieldText.body, Name.chars, List.cons_append, List.cons_append] at hfield ⊢
  rw [fieldsIn]
  split
  next h =>
    rw [hfield] at h
    cases h
    rfl
  next h => rw [hfield] at h; cases h

/-- **The fields on a line are read in order.** -/
theorem fieldsIn_fields (fs : List FieldText) (behind : Gap) :
    fieldsIn (fs.flatMap FieldText.chars ++ behind.chars) = fs.map FieldText.field := by
  induction fs with
  | nil =>
    have hgap := fieldsIn_gap behind []
    rw [List.append_nil] at hgap
    rw [List.flatMap_nil, List.nil_append, hgap, fieldsIn, List.map_nil]
  | cons f fs ih =>
    rw [List.flatMap_cons, List.append_assoc, fieldsIn_append, ih, List.map_cons]

end Fields

end Bindery.Schema.Source
