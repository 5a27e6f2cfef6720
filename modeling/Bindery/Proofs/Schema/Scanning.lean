import Bindery.Proofs.Schema
import Bindery.Proofs.Schema.Phrases

/-!
# Scanning a schema

The scanner recovers what a schema declares. What stands behind an opening brace is read like a
further line (`addLine_opening`), a line of a definition adds the values and the fields that are
written on it to those of the lines before (`addLine_body`), and by induction the lines of a
definition add the definition (`foldl_linesFrom`). By another induction the declarations of a schema
add theirs, each under the namespace that was declared last. What a line is rests on the text alone:
it has no line break and no comment in it (`IsLine`).

* `foldl_definition` — the lines of a definition are read as the definition;
* `foldl_lines` — the lines of declarations are read as what they declare, in order.
-/

namespace Bindery.Schema.Source

open Text (beforeFirst dropPrefixList?)

/-! ### Comments -/

section Comments

variable {tail : List Char}

/-- A slash begins no comment if no slash follows it. -/
theorem withoutComment_cons (c : Char) (h : c = '/' → tail.head? ≠ some '/') :
    withoutComment (c :: tail) = c :: withoutComment tail := by
  have hnone : dropPrefixList? ['/', '/'] (c :: tail) = none := by
    by_cases hc : c = '/'
    · rw [dropPrefixList?, if_pos hc.symm]
      cases tail with
      | nil => rfl
      | cons d tail => exact if_neg fun hd => h hc (congrArg some hd.symm)
    · exact if_neg (Ne.symm hc)
  rw [withoutComment, beforeFirst, hnone]
  rfl

/-- No comment begins where there is no slash. -/
theorem withoutComment_append {cs : List Char} (h : '/' ∉ cs) (tail : List Char) :
    withoutComment (cs ++ tail) = cs ++ withoutComment tail := by
  induction cs with
  | nil => rfl
  | cons c cs ih =>
    obtain ⟨hc, hcs⟩ := List.ne_and_not_mem_of_not_mem_cons h
    rw [List.cons_append, withoutComment_cons c fun heq => absurd heq.symm hc, ih hcs,
      List.cons_append]

/-- **A text without comments has none in front of something else** that begins with no slash. -/
theorem withoutComment_free {cs : List Char} (hcs : ¬ ['/', '/'] <:+: cs)
    (h : tail.head? ≠ some '/') : withoutComment (cs ++ tail) = cs ++ withoutComment tail := by
  induction cs with
  | nil => rfl
  | cons c cs ih =>
    have hrest : ¬ ['/', '/'] <:+: cs := fun hslashes =>
      hcs (hslashes.trans (List.suffix_cons c cs).isInfix)
    -- a slash at the end of the text is followed by what comes behind the text
    have hc : c = '/' → (cs ++ tail).head? ≠ some '/' := by
      rintro rfl
      cases cs with
      | nil => exact h
      | cons d cs =>
        rintro hd
        obtain rfl := Option.some.inj hd
        exact hcs (List.prefix_append ['/', '/'] cs).isInfix
    rw [List.cons_append, withoutComment_cons c hc, ih hrest, List.cons_append]

end Comments

/-! ### Lines -/

/-- A line on its own: there is no line break in it, and there is no comment on it, even if more
follows that does not begin with a slash. -/
structure IsLine (line : List Char) : Prop where
  unbroken : '\n' ∉ line
  uncommented : ∀ tail : List Char, tail.head? ≠ some '/' →
    withoutComment (line ++ tail) = line ++ withoutComment tail

theorem IsLine.withoutComment {line : List Char} (h : IsLine line) :
    withoutComment line = line := by
  have huncommented := h.uncommented [] (by simp)
  have hnil : Schema.withoutComment [] = [] := rfl
  rwa [List.append_nil, hnil, List.append_nil] at huncommented

/-- What a line ends in: nothing, or the closing brace and blanks. -/
def closing : Option Gap → List Char
  | none => []
  | some g => '\x7d' :: g.chars

theorem Spelling.not_mem_of_isForeign {d : Char} (t : Spelling) (h : isForeign d = true) :
    d ∉ t.chars := by
  obtain ⟨-, -, -, -, -, -, -, hopen, hclose⟩ := ne_of_isForeign h
  cases t with
  | plain name => exact Reference.not_mem_of_isForeign name h
  | vector before element behind =>
    simp [Spelling.chars, hopen, hclose, before.not_mem_of_isForeign h,
      behind.not_mem_of_isForeign h, Reference.not_mem_of_isForeign element h]

/-- The text of a field up to what is free in it. -/
def FieldText.front (f : FieldText) : List Char :=
  f.lead.chars ++ (f.name.chars ++ (f.beforeColon.chars ++ ':' :: (f.afterColon.chars ++
    f.type.chars)))

theorem FieldText.chars_eq (f : FieldText) : f.chars = f.front ++ (f.extra.chars ++ [';']) := by
  simp only [FieldText.chars, FieldText.body, FieldText.front, List.append_assoc,
    List.cons_append]

theorem FieldText.front_not_mem {d : Char} (f : FieldText) (h : isForeign d = true) :
    d ∉ f.front := by
  obtain ⟨-, -, -, -, -, hcolon, -⟩ := ne_of_isForeign h
  have hname := f.name.not_mem_of_isForeign h
    (fun _ hc => isDottedTail_of_isNameStart (isNameStart_of_isFieldStart hc))
    fun _ => isDottedTail_of_isNameTail
  simp [FieldText.front, hcolon, hname, f.lead.not_mem_of_isForeign h,
    f.beforeColon.not_mem_of_isForeign h, f.afterColon.not_mem_of_isForeign h,
    f.type.not_mem_of_isForeign h]

/-- A character that means something to the scanner wherever it stands on a line. -/
def isMark (d : Char) : Bool := d = '\x7b' || d = '\x7d' || d = '\n'

theorem isForeign_of_isMark {d : Char} (h : isMark d = true) : isForeign d = true := by
  simp only [isMark, Bool.or_eq_true, decide_eq_true_eq] at h
  rcases h with (rfl | rfl) | rfl <;> decide

theorem FreeText.not_mem {d : Char} (t : FreeText) (h : isMark d = true) : d ∉ t.chars := by
  simp only [isMark, Bool.or_eq_true, decide_eq_true_eq] at h
  rcases h with (rfl | rfl) | rfl
  · exact t.unopened
  · exact t.unclosed
  · exact t.unbroken

theorem FieldText.not_mem {d : Char} (f : FieldText) (h : isMark d = true) : d ∉ f.chars := by
  have hforeign := isForeign_of_isMark h
  obtain ⟨-, -, -, -, -, -, hsemicolon, -⟩ := ne_of_isForeign hforeign
  rw [f.chars_eq]
  simp [f.front_not_mem hforeign, f.extra.not_mem h, hsemicolon]

theorem not_mem_intercalate {d : Char} {pieces : List Piece} (h : isForeign d = true)
    (hd : d ≠ ',') : d ∉ [','].intercalate (pieces.map Piece.chars) := by
  induction pieces with
  | nil => exact List.not_mem_nil
  | cons p ps ih =>
    cases ps with
    | nil => simpa using p.not_mem_of_isForeign h
    | cons q qs =>
      rw [List.map_cons, List.map_cons, List.intercalate_cons_cons]
      simp only [List.mem_append, List.mem_singleton, not_or]
      exact ⟨⟨p.not_mem_of_isForeign h, hd⟩, ih⟩

namespace BodyLine

/-- No brace and no line break is on a line of a body. -/
theorem not_mem {d : Char} (l : BodyLine) (h : isMark d = true) : d ∉ l.chars := by
  have hforeign := isForeign_of_isMark h
  cases l with
  | values pieces =>
    refine not_mem_intercalate hforeign ?_
    rintro rfl
    cases h
  | fields fs behind =>
    have hfs : ∀ f ∈ fs, d ∉ f.chars := fun f _ => f.not_mem h
    simpa [BodyLine.chars, behind.not_mem_of_isForeign hforeign] using hfs
  | members text _ => exact text.not_mem h

/-- The text of a line of a body is no comment. -/
theorem withoutComment_append (l : BodyLine) {tail : List Char} (h : tail.head? ≠ some '/') :
    withoutComment (l.chars ++ tail) = l.chars ++ withoutComment tail := by
  cases l with
  | values pieces =>
    exact Source.withoutComment_append (not_mem_intercalate (by decide) (by decide)) tail
  | fields fs behind =>
    rw [BodyLine.chars]
    -- only the free part of a field can have slashes, and a semicolon comes behind it
    induction fs with
    | nil => exact Source.withoutComment_append (behind.not_mem_of_isForeign (by decide)) tail
    | cons f fs ih =>
      have hextra : ∀ t, withoutComment (f.extra.chars ++ ';' :: t) =
          f.extra.chars ++ ';' :: withoutComment t := fun t => by
        rw [withoutComment_free f.extra.uncommented (by simp),
          withoutComment_cons ';' fun hc => absurd hc (by decide)]
      simp only [List.append_assoc] at ih
      simp only [List.flatMap_cons, f.chars_eq, List.append_assoc, List.cons_append,
        List.nil_append, Source.withoutComment_append (f.front_not_mem (by decide)), hextra, ih]
  | members text _ => exact withoutComment_free text.uncommented h

theorem isLine (l : BodyLine) : IsLine l.chars :=
  ⟨l.not_mem rfl, fun _ h => l.withoutComment_append h⟩

end BodyLine

/-- A text without line breaks and slashes is a line. -/
theorem isLine_of_not_mem {line : List Char} (hbreak : '\n' ∉ line) (hslash : '/' ∉ line) :
    IsLine line :=
  ⟨hbreak, fun tail _ => withoutComment_append hslash tail⟩

theorem Gap.isLine (g : Gap) : IsLine g.chars :=
  isLine_of_not_mem (g.not_mem_of_isForeign (by decide)) (g.not_mem_of_isForeign (by decide))

/-- Two lines are one line when a character stands between them that means nothing to lines. -/
theorem IsLine.append {a b : List Char} {c : Char} (ha : IsLine a) (hb : IsLine b)
    (hbreak : c ≠ '\n') (hslash : c ≠ '/') : IsLine (a ++ c :: b) := by
  refine ⟨?_, fun tail htail => ?_⟩
  · simp [ha.unbroken, hb.unbroken, hbreak.symm]
  · have hhead : (c :: (b ++ tail)).head? ≠ some '/' := by simpa using hslash
    rw [List.append_assoc, List.cons_append, ha.uncommented _ hhead,
      withoutComment_cons c fun hc => absurd hc hslash, hb.uncommented tail htail,
      List.append_assoc, List.cons_append]

/-- The closing brace and blanks may end a line. -/
theorem IsLine.closing {line : List Char} (h : IsLine line) (c : Option Gap) :
    IsLine (line ++ closing c) := by
  cases c with
  | none => rwa [Source.closing, List.append_nil]
  | some g => exact h.append g.isLine (by decide) (by decide)

theorem isDottedTail_of_mem_name (k : TypeKind) : ∀ c ∈ k.name.toList, isDottedTail c = true :=
  List.all_eq_true.mp (by cases k <;> rfl)

theorem Definition.header_not_mem {d : Char} (t : Definition) (h : isForeign d = true) :
    d ∉ t.header := by
  obtain ⟨hdotted, -, -, -, -, hcolon, -⟩ := ne_of_isForeign h
  -- Keywords, names and bases are made of dotted words, which a foreign character is not in.
  have hkeyword : d ∉ t.kind.name.toList := fun hmem => by
    simp [isDottedTail_of_mem_name t.kind d hmem] at hdotted
  have hname := t.name.not_mem_of_isForeign h
    (fun _ hc => isDottedTail_of_isNameStart (isNameStart_of_isUpper hc))
    fun _ hc => isDottedTail_of_isNameTail (isNameTail_of_isAlphanum hc)
  -- The base has a colon in front of it and gaps around it.
  have hbase : d ∉ t.baseText := by
    rw [baseText]
    cases t.base with
    | none => exact t.behind.not_mem_of_isForeign h
    | some b =>
      have hword := b.2.2.not_mem_of_isForeign h (fun _ => isDottedTail_of_isNameTail)
        fun _ => isDottedTail_of_isNameTail
      simp [hcolon, b.1.not_mem_of_isForeign h, b.2.1.not_mem_of_isForeign h, hword,
        t.behind.not_mem_of_isForeign h]
  simp [Definition.header, hkeyword, hname, hbase, t.lead.not_mem_of_isForeign h,
    t.apart.not_mem_of_isForeign h]

theorem Definition.isLine_header (t : Definition) : IsLine t.header :=
  isLine_of_not_mem (t.header_not_mem (by decide)) (t.header_not_mem (by decide))

theorem ScopeText.not_mem {d : Char} (s : ScopeText) (h : isForeign d = true) : d ∉ s.chars := by
  obtain ⟨hdotted, -, -, -, -, -, hsemicolon, -⟩ := ne_of_isForeign h
  have hletters : ∀ c ∈ "namespace".toList, isDottedTail c = true :=
    List.all_eq_true.mp rfl
  have hkeyword : d ∉ "namespace".toList := fun hmem => by
    simp [hletters d hmem] at hdotted
  have hname := s.name.not_mem_of_isForeign h
    (fun _ hc => isDottedTail_of_isNameStart (isNameStart_of_isAlpha hc)) fun _ => id
  rw [ScopeText.chars]
  simp only [List.mem_append, List.mem_cons, not_or]
  exact ⟨s.lead.not_mem_of_isForeign h, hkeyword, s.apart.not_mem_of_isForeign h, hname,
    s.behind.not_mem_of_isForeign h, hsemicolon, s.ending.not_mem_of_isForeign h⟩

theorem isLine_of_mem_linesFrom {ending : Gap} {more : List BodyLine} {start : List Char}
    (hstart : IsLine start) : ∀ line ∈ Definition.linesFrom ending start more, IsLine line := by
  induction more generalizing start with
  | nil =>
    intro line hline
    obtain rfl := List.mem_singleton.mp hline
    exact hstart.closing (some ending)
  | cons l more ih =>
    intro line hline
    rcases List.mem_cons.mp hline with rfl | hline
    · exact hstart
    · exact ih l.isLine line hline

/-- **Declarations consist of lines.** -/
theorem isLine_of_mem_lines {d : Declaration} : ∀ line ∈ d.lines, IsLine line := by
  -- By the kind of declaration, each with its own characters around the text.
  cases d with
  | blank gap =>
    intro line hline
    obtain rfl := List.mem_singleton.mp hline
    exact gap.isLine
  | scope s =>
    intro line hline
    obtain rfl := List.mem_singleton.mp hline
    exact isLine_of_not_mem (s.not_mem (by decide)) (s.not_mem (by decide))
  | type t =>
    exact isLine_of_mem_linesFrom
      (t.isLine_header.append t.first.isLine (by decide) (by decide))

theorem isLine_of_mem_flatMap {ds : List Declaration} :
    ∀ line ∈ ds.flatMap Declaration.lines, IsLine line := by
  intro line hline
  obtain ⟨d, -, hline⟩ := List.mem_flatMap.mp hline
  exact isLine_of_mem_lines line hline

/-! ### Lines of a definition -/

/-- A line of a body adds its values and its fields. -/
theorem addBody_line (u : Unclosed) (l : BodyLine) (h : l.Suits u.type.kind) :
    u.addBody l.chars =
      { u with
        type :=
          { u.type with
            values := u.type.values ++ valuesFrom u.next l.enumerators
            fields := u.type.fields ++ l.fieldList }
        next := numberAfter u.next l.enumerators } := by
  -- a line suits the kind of the type: values, fields, or members that nobody reads
  cases l with
  | values pieces =>
    have hkind : u.type.kind = .enum := h
    simp only [Unclosed.addBody, hkind, BodyLine.chars, BodyLine.enumerators, BodyLine.fieldList,
      enumItems_pieces, numberFrom_items, nextNumber_values, List.append_nil]
  | fields fs behind =>
    have hkind : u.type.kind = .struct ∨ u.type.kind = .table := h
    have hfields : u.addBody (BodyLine.fields fs behind).chars =
        { u with type := { u.type with fields := u.type.fields ++ fs.map FieldText.field } } := by
      rw [← fieldsIn_fields fs behind]
      rcases hkind with hkind | hkind <;> simp only [Unclosed.addBody, hkind, BodyLine.chars]
    simp only [hfields, BodyLine.enumerators, BodyLine.fieldList, valuesFrom, numberAfter,
      List.append_nil]
  | members text _ =>
    have hkind : u.type.kind = .union := h
    have hsame : u.addBody text.chars = u := by simp only [Unclosed.addBody, hkind]
    simp only [BodyLine.chars, hsame, BodyLine.enumerators, BodyLine.fieldList, valuesFrom,
      numberAfter, List.append_nil]

/-- A line without anything on it changes nothing about a definition. -/
theorem addLine_nil (u : Unclosed) : u.addLine [] = u := by
  have hitems : enumItems [] = [] := rfl
  obtain ⟨name, ⟨kind, _, _, _, _⟩, depth, entered, next⟩ := u
  cases kind <;> simp [Unclosed.addLine, Unclosed.addBody, braceBalance, beforeClose, hitems,
    numberFrom, nextNumber, fieldsIn]

/-- **A definition that some lines of its body have been read of.** -/
def Definition.opened (d : Definition) (scope : String) (seen : List BodyLine) : Unclosed where
  name := qualifiedName scope d.name.text
  type :=
    { kind := d.kind
      scope
      base := if d.kind = .enum then some d.scalar else none
      values := valuesFrom 0 (seen.flatMap BodyLine.enumerators)
      fields := seen.flatMap BodyLine.fieldList }
  depth := 1
  entered := true
  next := numberAfter 0 (seen.flatMap BodyLine.enumerators)

/-- What is known behind these lines of a definition, if the last one ends in `closing c`. -/
def Definition.after (d : Definition) (s : Scan) (seen : List BodyLine) : Option Gap → Scan
  | none => { s with unclosed := some (d.opened s.scope seen) }
  | some _ =>
    { s with
      found := s.found ++ [(qualifiedName s.scope d.name.text, (d.opened s.scope seen).type)]
      unclosed := none }

/-- How many braces are open behind `closing c`. -/
def depthAfter : Option Gap → Int
  | none => 1
  | some _ => 0

/-- A definition is settled where its closing brace stands. -/
theorem settle_opened (d : Definition) (s : Scan) (seen : List BodyLine) (c : Option Gap) :
    s.settle { d.opened s.scope seen with depth := depthAfter c } = d.after s seen c := by
  cases c <;> rfl

/-- The state behind a line of a definition depends on what was known before its first line. -/
theorem after_after (d : Definition) (s : Scan) (seen all : List BodyLine) (c : Option Gap) :
    d.after (d.after s seen none) all c = d.after s all c := by
  cases c <;> rfl

section Braces

variable {start : List Char}

theorem beforeClose_closing (h : '\x7d' ∉ start) (c : Option Gap) :
    beforeClose (start ++ closing c) = start := by
  cases c with
  | none =>
    rw [closing, List.append_nil, beforeClose, List.takeWhile_eq_self_iff]
    exact fun _ hd => decide_eq_true (ne_of_mem_of_not_mem hd h)
  | some g => exact takeWhile_ne h g.chars

theorem braceBalance_append (a b : List Char) :
    braceBalance (a ++ b) = braceBalance a + braceBalance b := by
  simp only [braceBalance, List.count_append, Nat.cast_add]
  omega

theorem braceBalance_eq_zero (hopen : '\x7b' ∉ start) (hclose : '\x7d' ∉ start) :
    braceBalance start = 0 := by
  simp [braceBalance, List.count_eq_zero.mpr hopen, List.count_eq_zero.mpr hclose]

theorem braceBalance_closing (c : Option Gap) :
    braceBalance (closing c) = depthAfter c - 1 := by
  cases c with
  | none => rfl
  | some g =>
    have hgap : braceBalance g.chars = 0 := braceBalance_eq_zero
      (g.not_mem_of_isForeign (by decide)) (g.not_mem_of_isForeign (by decide))
    rw [closing, ← List.singleton_append, braceBalance_append, hgap]
    rfl

theorem afterOpen_append (h : '\x7b' ∉ start) (tail : List Char) :
    afterOpen (start ++ '\x7b' :: tail) = tail := by
  rw [afterOpen, dropWhile_ne h, List.drop_one, List.tail_cons]

end Braces

theorem braceBalance_line (l : BodyLine) (c : Option Gap) :
    braceBalance (l.chars ++ closing c) = depthAfter c - 1 := by
  rw [braceBalance_append, braceBalance_closing,
    braceBalance_eq_zero (l.not_mem rfl) (l.not_mem rfl), zero_add]

/-- **A further line of a definition** adds what is written on it. -/
theorem addLine_body (d : Definition) (s : Scan) (seen : List BodyLine) {l : BodyLine}
    (h : l.Suits d.kind) (c : Option Gap) :
    (d.after s seen none).addLine (l.chars ++ closing c) = d.after s (seen ++ [l]) c := by
  have hdepth : (1 : Int) + (depthAfter c - 1) = depthAfter c := by omega
  have hopened : (d.opened s.scope seen).addLine (l.chars ++ closing c) =
      { d.opened s.scope (seen ++ [l]) with depth := depthAfter c } := by
    -- the closing brace is not part of the body, and no other brace is on the line
    rw [Unclosed.addLine, beforeClose_closing (l.not_mem rfl), addBody_line _ l h,
      braceBalance_line]
    simp only [Definition.opened, List.flatMap_append, List.flatMap_cons, List.flatMap_nil,
      List.append_nil, valuesFrom_append, numberAfter_append, hdepth, Bool.true_or]
  calc (d.after s seen none).addLine (l.chars ++ closing c)
      = (d.after s seen none).settle ((d.opened s.scope seen).addLine (l.chars ++ closing c)) := rfl
    _ = (d.after s seen none).settle
          { d.opened s.scope (seen ++ [l]) with depth := depthAfter c } := by rw [hopened]
    _ = d.after (d.after s seen none) (seen ++ [l]) c := settle_opened d _ _ c
    _ = d.after s (seen ++ [l]) c := after_after d s seen _ c

/-- **What stands behind the opening brace** is read like a further line. -/
theorem addLine_opening (d : Definition) (s : Scan) (hs : s.unclosed = none) (tail : List Char) :
    s.addLine (d.header ++ '\x7b' :: tail) = (d.after s [] none).addLine tail := by
  -- Up to the brace the line is the header, so the first brace is the one that opens.
  have hopen : '\x7b' ∉ d.header := d.header_not_mem (by decide)
  have hclose : '\x7d' ∉ d.header := d.header_not_mem (by decide)
  have hdepth : braceBalance (d.header ++ '\x7b' :: tail) = 1 + braceBalance tail := by
    rw [braceBalance_append, braceBalance_eq_zero hopen hclose, ← List.singleton_append,
      braceBalance_append, zero_add]
    rfl
  have hcontains : (d.header ++ '\x7b' :: tail).contains '\x7b' = true := by simp
  have hopened : Unclosed.ofHeader s.scope ⟨d.kind, d.name.text, d.base.map fun b => b.2.2.text⟩
      (d.header ++ '\x7b' :: tail) = (d.opened s.scope []).addLine tail := by
    rw [Unclosed.ofHeader, afterOpen_append hopen, hdepth, hcontains]
    rfl
  rw [Scan.addLine, hs]
  simp only [namespaceOf?_header, headerOf?_header d (opening_cons _), hopened]
  rw [Scan.addLine, Definition.after]
  rfl

/-- **The lines of a definition add the definition**, whichever of them have been read. What is
known about `start`, the line that comes next, is known for both ways in which it can end: it is the
last one, or there are more. -/
theorem foldl_linesFrom (d : Definition) (s : Scan) {more : List BodyLine}
    (hmore : ∀ l ∈ more, l.Suits d.kind) {seen : List BodyLine} {start : List Char} {s' : Scan}
    (h : ∀ c, s'.addLine (start ++ closing c) = d.after s seen c) :
    (Definition.linesFrom d.ending start more).foldl Scan.addLine s' =
      d.after s (seen ++ more) (some d.ending) := by
  induction more generalizing seen start s' with
  | nil =>
    rw [Definition.linesFrom, List.foldl_cons, List.foldl_nil, List.append_nil]
    exact h (some d.ending)
  | cons l more ih =>
    -- `start` is not the last line, so it does not end in the brace
    obtain ⟨hl, hrest⟩ := List.forall_mem_cons.mp hmore
    have hstart := h none
    rw [closing, List.append_nil] at hstart
    rw [Definition.linesFrom, List.foldl_cons, hstart, ih hrest (addLine_body d s seen hl),
      List.append_assoc, List.singleton_append]

theorem foldl_definition (d : Definition) (s : Scan) (hs : s.unclosed = none) :
    d.lines.foldl Scan.addLine s =
      { s with found := s.found ++ [(qualifiedName s.scope d.name.text, d.type s.scope)] } := by
  obtain ⟨hfirst, hmore⟩ := List.forall_mem_cons.mp d.suits
  have hheader : ∀ c, s.addLine (d.header ++ '\x7b' :: d.first.chars ++ closing c) =
      d.after s [d.first] c := by
    intro c
    rw [List.append_assoc, List.cons_append, addLine_opening d s hs, addLine_body d s [] hfirst,
      List.nil_append]
  rw [Definition.lines, foldl_linesFrom d s hmore hheader]
  obtain ⟨scope, found, _⟩ := s
  cases hs
  rfl

/-! ### Declarations -/

theorem addLine_gap (s : Scan) (hs : s.unclosed = none) (g : Gap) : s.addLine g.chars = s := by
  have hnamespace : namespaceOf? g.chars = none := by
    rw [namespaceOf?, skipBlanks_gap_nil]
    rfl
  have hheader : headerOf? g.chars = none := by
    rw [headerOf?, skipBlanks_gap_nil]
    rfl
  rw [Scan.addLine, hs]
  simp only [hnamespace, hheader]

theorem addLine_scope (s : Scan) (hs : s.unclosed = none) (n : ScopeText) :
    s.addLine n.chars = { s with scope := n.name.text } := by
  rw [Scan.addLine, hs]
  simp only [namespaceOf?_scope]

/-- **What a schema adds**, declaration by declaration. -/
theorem foldl_lines (scope : String) (found : List (String × TypeDef)) (ds : List Declaration) :
    (ds.flatMap Declaration.lines).foldl Scan.addLine ⟨scope, found, none⟩ =
      ⟨scopeAfter scope ds, found ++ declared scope ds, none⟩ := by
  -- A declaration leaves nothing unclosed, so the next one starts from the same state.
  induction ds generalizing scope found with
  | nil => rw [List.flatMap_nil, List.foldl_nil, scopeAfter, declared, List.append_nil]
  | cons d ds ih =>
    rw [List.flatMap_cons, List.foldl_append]
    cases d with
    | blank gap =>
      rw [Declaration.lines, List.foldl_cons, List.foldl_nil, addLine_gap _ rfl, ih, scopeAfter,
        declared]
    | scope n =>
      rw [Declaration.lines, List.foldl_cons, List.foldl_nil, addLine_scope _ rfl, ih, scopeAfter,
        declared]
    | type d =>
      rw [Declaration.lines, foldl_definition d _ rfl, ih, scopeAfter, declared, List.append_assoc,
        List.singleton_append]

end Bindery.Schema.Source
