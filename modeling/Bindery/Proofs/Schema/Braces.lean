import Bindery.Proofs.Schema.Comments
import Bindery.Proofs.Schema.Parsing

/-!
# Opening braces on lines of their own

A definition may have its opening brace on the line after its header. Nothing of a struct, a table
or a union depends on that. Of an enumeration whose first value is written next to the brace, that
value is lost: what is read from the header line is the text behind the brace, whereas what is read
from a line of an open definition begins with the brace, and a piece with a brace in it is no value.
The values that follow are numbered as if the lost one had not been there.

So a definition with its brace on a new line is read like the definition without such a value
(`Definition.beheaded`): line by line (`foldl_brokenLines`), in a whole schema
(`definitionsIn_broken`), and as a schema:

* `parse_broken_iff` — the line break makes no difference exactly if no value stands next to the
  brace.
-/

namespace Bindery.Schema.Source

open Text (cutList)

/-! ### The line with the brace -/

/-- A line of a body without the value that it begins with. -/
def BodyLine.beheaded : BodyLine → BodyLine
  | values (.value e :: pieces) => values (.blank e.lead :: pieces)
  | l => l

theorem BodyLine.Suits.beheaded {kind : TypeKind} {l : BodyLine} (h : l.Suits kind) :
    l.beheaded.Suits kind := by
  unfold BodyLine.beheaded
  split <;> exact h

/-- **The piece next to the brace is lost**, as if there were blanks in its place. -/
theorem enumItems_brace (p : Piece) (gap : Gap) (ps : List Piece) :
    enumItems ('\x7b' :: [','].intercalate ((p :: ps).map Piece.chars)) =
      enumItems ([','].intercalate ((.blank gap :: ps).map Piece.chars)) := by
  have hcomma : ',' ∉ '\x7b' :: p.chars := by
    simpa using p.not_mem_of_isForeign (d := ',') (by decide)
  have hcomma' : ',' ∉ (Piece.blank gap).chars := (Piece.blank gap).not_mem_of_isForeign (by decide)
  have hbrace : enumItemOf? ('\x7b' :: p.chars) = none := rfl
  have hblank : enumItemOf? (Piece.blank gap).chars = none := enumItemOf?_piece (.blank gap)
  -- the piece ends at a comma or at the end of the line
  cases ps with
  | nil =>
    simp only [List.map_cons, List.map_nil, List.intercalate_singleton]
    rw [enumItems_of_not_mem hcomma, enumItems_of_not_mem hcomma', hbrace, hblank]
  | cons q qs =>
    simp only [List.map_cons, List.intercalate_cons_cons, List.append_assoc, List.singleton_append]
    rw [← List.cons_append, enumItems_comma, enumItems_of_not_mem hcomma, hbrace,
      enumItems_comma, enumItems_of_not_mem hcomma', hblank]

/-- A line of a body adds what it would add without the value next to the brace. -/
theorem addBody_brace (u : Unclosed) {l : BodyLine} (h : l.Suits u.type.kind) :
    u.addBody ('\x7b' :: l.chars) = u.addBody l.beheaded.chars := by
  cases l with
  | values pieces =>
    have hkind : u.type.kind = .enum := h
    have hitems : enumItems ('\x7b' :: (BodyLine.values pieces).chars) =
        enumItems (BodyLine.values pieces).beheaded.chars := by
      cases pieces with
      | nil => rfl
      | cons p ps =>
        cases p with
        | blank gap => exact enumItems_brace (.blank gap) gap ps
        | value e => exact enumItems_brace (.value e) e.lead ps
    simp only [Unclosed.addBody, hkind, hitems]
  | fields fs behind =>
    -- a brace begins no field
    have hfields : fieldsIn ('\x7b' :: (BodyLine.fields fs behind).chars) =
        fieldsIn (BodyLine.fields fs behind).chars := fieldsIn_cons_of_not_isFieldStart rfl _
    have hkind : u.type.kind = .struct ∨ u.type.kind = .table := h
    rcases hkind with hkind | hkind <;> simp only [Unclosed.addBody, hkind, hfields] <;> rfl
  | members text _ =>
    have hkind : u.type.kind = .union := h
    simp only [Unclosed.addBody, hkind]

/-! ### Definitions -/

namespace Definition

/-- **A definition without the value next to its opening brace.** -/
def beheaded (d : Definition) : Definition :=
  { d with
    first := d.first.beheaded
    suits := by
      obtain ⟨hfirst, hmore⟩ := List.forall_mem_cons.mp d.suits
      exact List.forall_mem_cons.mpr ⟨hfirst.beheaded, hmore⟩ }

/-- The lines of a definition with a line break in front of its opening brace. -/
def brokenLines (d : Definition) : List (List Char) :=
  d.header :: linesFrom d.ending ('\x7b' :: d.first.chars) d.more

/-- Whether a value stands next to the opening brace, blanks aside. -/
def OpensWithValue (d : Definition) : Prop := ∃ e pieces, d.first = .values (.value e :: pieces)

/-- A definition whose header has been read, and whose opening brace has not. -/
def announced (d : Definition) (scope : String) : Unclosed :=
  { d.opened scope [] with depth := 0, entered := false }

end Definition

/-- **A header on a line of its own** announces the definition. -/
theorem addLine_announcement (d : Definition) (s : Scan) (hs : s.unclosed = none) :
    s.addLine d.header = { s with unclosed := some (d.announced s.scope) } := by
  have hopen : '\x7b' ∉ d.header := d.header_not_mem (by decide)
  have hclose : '\x7d' ∉ d.header := d.header_not_mem (by decide)
  have hheader := headerOf?_header d opening_nil
  have hnamespace := namespaceOf?_header d []
  rw [List.append_nil] at hheader hnamespace
  -- without a brace there is no body on the line
  have hafter : afterOpen d.header = [] := by
    have hall : d.header.dropWhile (· ≠ '\x7b') = [] := List.dropWhile_eq_nil_iff.mpr fun c hc =>
      decide_eq_true (ne_of_mem_of_not_mem hc hopen)
    rw [afterOpen, hall]
    rfl
  have hcontains : d.header.contains '\x7b' = false := by simpa using hopen
  have hannounced :
      Unclosed.ofHeader s.scope ⟨d.kind, d.name.text, d.base.map fun b => b.2.2.text⟩ d.header =
        d.announced s.scope := by
    rw [Unclosed.ofHeader, hafter, hcontains, braceBalance_eq_zero hopen hclose]
    exact addLine_nil (d.announced s.scope)
  rw [Scan.addLine, hs]
  simp only [hnamespace, hheader, hannounced]
  rfl

/-- **The line with the brace** goes on with the definition that the header announced. -/
theorem addLine_brace (d : Definition) (s : Scan) (c : Option Gap) :
    ({ s with unclosed := some (d.announced s.scope) } : Scan).addLine
        ('\x7b' :: d.first.chars ++ closing c) = d.beheaded.after s [d.beheaded.first] c := by
  obtain ⟨hfirst, -⟩ := List.forall_mem_cons.mp d.suits
  have hclose : '\x7d' ∉ '\x7b' :: d.first.chars := by
    simpa using d.first.not_mem (d := '\x7d') rfl
  have hdepth : braceBalance ('\x7b' :: d.first.chars ++ closing c) =
      1 + braceBalance (d.beheaded.first.chars ++ closing c) := by
    rw [List.cons_append, ← List.singleton_append, braceBalance_append, braceBalance_line,
      braceBalance_line]
    rfl
  have hopened : (d.announced s.scope).addLine ('\x7b' :: d.first.chars ++ closing c) =
      (d.beheaded.opened s.scope []).addLine (d.beheaded.first.chars ++ closing c) := by
    rw [Unclosed.addLine, Unclosed.addLine, beforeClose_closing hclose,
      beforeClose_closing (d.beheaded.first.not_mem rfl), hdepth]
    refine (addBody_brace _ hfirst).trans ?_
    -- the brace on this line is the one that the other definition had on its header line
    have hzero : (d.announced s.scope).depth = 0 := rfl
    have hone : (d.beheaded.opened s.scope []).depth = 1 := rfl
    rw [hzero, hone, zero_add]
    rfl
  have hbody := addLine_body d.beheaded s [] hfirst.beheaded c
  rw [List.nil_append] at hbody
  refine Eq.trans ?_ hbody
  rw [Scan.addLine, Definition.after, Scan.addLine]
  simp only [hopened]
  rfl

/-- **A definition with its brace on a new line** is read like the definition without the value next
to the brace. -/
theorem foldl_brokenLines (d : Definition) (s : Scan) (hs : s.unclosed = none) :
    d.brokenLines.foldl Scan.addLine s = d.beheaded.lines.foldl Scan.addLine s := by
  obtain ⟨-, hmore⟩ := List.forall_mem_cons.mp d.beheaded.suits
  have hbroken := foldl_linesFrom d.beheaded s hmore (addLine_brace d s)
  rw [Definition.brokenLines, List.foldl_cons, addLine_announcement d s hs]
  refine hbroken.trans ?_
  rw [foldl_definition d.beheaded s hs]
  obtain ⟨scope, found, _⟩ := s
  cases hs
  rfl

theorem isLine_of_mem_brokenLines {d : Definition} : ∀ line ∈ d.brokenLines, IsLine line := by
  intro line hline
  have hnil : IsLine [] := isLine_of_not_mem nofun nofun
  rcases List.mem_cons.mp hline with rfl | hline
  · exact d.isLine_header
  · exact isLine_of_mem_linesFrom
      (hnil.append d.first.isLine (by decide) (by decide)) line hline

/-! ### Schemas -/

/-- The lines of declarations of which one has a line break in front of its opening brace. -/
def brokenLines (before : List Declaration) (d : Definition) (after : List Declaration) :
    List (List Char) :=
  before.flatMap Declaration.lines ++ (d.brokenLines ++ after.flatMap Declaration.lines)

section Schemas

variable {before after : List Declaration} {d : Definition} {joined broken : String}

theorem foldl_brokenSchema :
    (brokenLines before d after).foldl Scan.addLine {} =
      ((before ++ .type d.beheaded :: after).flatMap Declaration.lines).foldl Scan.addLine {} := by
  rw [brokenLines, List.flatMap_append, List.flatMap_cons, List.foldl_append, List.foldl_append,
    List.foldl_append, List.foldl_append, Declaration.lines,
    foldl_brokenLines d _ (by rw [foldl_lines "" [] before])]

/-- **With the line break the definitions** are those of the schema without the value next to the
brace. -/
theorem definitionsIn_broken
    (h : Annotated (brokenLines before d after) (cutList '\n' broken.toList)) :
    definitionsIn broken = declared "" (before ++ .type d.beheaded :: after) := by
  have hlines : ∀ line ∈ brokenLines before d after, IsLine line := by
    intro line hline
    rcases List.mem_append.mp hline with hline | hline
    · exact isLine_of_mem_flatMap line hline
    · rcases List.mem_append.mp hline with hline | hline
      · exact isLine_of_mem_brokenLines line hline
      · exact isLine_of_mem_flatMap line hline
  rw [definitionsIn_annotated h, readLines_eq_foldl hlines, foldl_brokenSchema,
    foldl_lines "" [] (before ++ .type d.beheaded :: after)]
  simp only [Scan.definitions, List.nil_append, Option.map_none, Option.toList_none,
    List.append_nil]

end Schemas

theorem declared_append (scope : String) (ds ds' : List Declaration) :
    declared scope (ds ++ ds') = declared scope ds ++ declared (scopeAfter scope ds) ds' := by
  induction ds generalizing scope with
  | nil => rfl
  | cons d ds ih => cases d <;> simp [declared, scopeAfter, ih]

/-- A definition without a value next to its brace stays as it is. -/
theorem beheaded_eq_self {d : Definition} (h : ¬ d.OpensWithValue) : d.beheaded = d := by
  have hfirst : d.first.beheaded = d.first := by
    unfold BodyLine.beheaded
    split
    next e pieces heq => exact absurd ⟨e, pieces, heq⟩ h
    next => rfl
  simp only [Definition.beheaded, hfirst]

theorem length_valuesFrom (next : Int) (es : List Enumerator) :
    (valuesFrom next es).length = es.length := by
  induction es generalizing next with
  | nil => rfl
  | cons e es ih => simp only [valuesFrom, List.length_cons, ih]

/-- **A value next to the brace is missing.** -/
theorem length_values_beheaded {d : Definition} (h : d.OpensWithValue) (scope : String) :
    (d.type scope).values.length = (d.beheaded.type scope).values.length + 1 := by
  obtain ⟨e, pieces, hfirst⟩ := h
  simp only [Definition.type, Definition.beheaded, length_valuesFrom, List.flatMap_cons, hfirst,
    List.length_append, BodyLine.beheaded, BodyLine.enumerators, List.filterMap_cons,
    Piece.enumerator?, List.length_cons]
  omega

/-- **Other values make another schema**: qualifying references leaves values alone. -/
theorem ofDefinitions_ne {earlier later : List (String × TypeDef)} {name : String} {t t' : TypeDef}
    (hnames : ((earlier ++ (name, t) :: later).map Prod.fst).Nodup) (h : t.values ≠ t'.values) :
    ofDefinitions (earlier ++ (name, t') :: later) ≠
      ofDefinitions (earlier ++ (name, t) :: later) := by
  have hnames' : ((earlier ++ (name, t') :: later).map Prod.fst).Nodup := by
    rwa [List.map_append, List.map_cons] at hnames ⊢
  obtain ⟨types, hok, hperm⟩ := exists_ofDefinitions hnames
  obtain ⟨types', hok', hperm'⟩ := exists_ofDefinitions hnames'
  have hget := get?_qualify hperm (List.mem_append_right _ List.mem_cons_self)
  have hget' := get?_qualify hperm' (List.mem_append_right _ List.mem_cons_self)
  -- One schema would have one definition under the name, and the two differ in their values.
  intro hsame
  rw [hok, hok'] at hsame
  rw [Except.ok.inj hsame, hget] at hget'
  have hvalues : (qualifyDef types.names t).values = (qualifyDef types'.names t').values := by
    rw [Option.some.inj hget']
  exact h hvalues

section Schemas

variable {before after : List Declaration} {d : Definition} {joined broken : String}

/-- **A line break in front of an opening brace makes no difference exactly if no value stands next
to the brace.** The names that the schema defines are distinct, as they are where there is only one
definition, and both texts may have comments and blank lines. -/
theorem parse_broken_iff
    (hnames : ((declared "" (before ++ .type d :: after)).map Prod.fst).Nodup)
    (hjoined : Annotated ((before ++ .type d :: after).flatMap Declaration.lines)
      (cutList '\n' joined.toList))
    (hbroken : Annotated (brokenLines before d after) (cutList '\n' broken.toList)) :
    parse broken = parse joined ↔ ¬ d.OpensWithValue := by
  have hsplit : ∀ d : Definition, declared "" (before ++ .type d :: after) =
      declared "" before ++ (qualifiedName (scopeAfter "" before) d.name.text,
        d.type (scopeAfter "" before)) :: declared (scopeAfter "" before) after := fun d => by
    rw [declared_append, declared]
  rw [hsplit] at hnames
  rw [parse, parse, definitionsIn_annotated_lines hjoined, definitionsIn_broken hbroken, hsplit,
    hsplit]
  constructor
  -- The value behind the brace is lost, so there is one value less.
  · intro hparse hvalue
    have hlength := length_values_beheaded hvalue (scopeAfter "" before)
    refine ofDefinitions_ne hnames (fun hvalues => ?_) hparse
    rw [hvalues] at hlength
    omega
  · intro hvalue
    rw [beheaded_eq_self hvalue]

end Schemas

/-- There is an enumeration with a value next to its brace. -/
theorem exists_letters : ∃ d : Definition,
    d.lines = ["enum E : byte \x7b A, B \x7d".toList] ∧
    d.brokenLines = ["enum E : byte ".toList, "\x7b A, B \x7d".toList] ∧ d.OpensWithValue ∧
    ((declared "" [.type d]).map Prod.fst).Nodup := by
  refine ⟨
    { kind := .enum
      name := { head := 'E' }
      base := some ({ chars := [' '] }, { chars := [' '] },
        { head := 'b', tail := ['y', 't', 'e'] })
      first := .values
        [.value { lead := { chars := [' '] }, name := { head := 'A' } },
         .value
          { lead := { chars := [' '] }, name := { head := 'B' }, behind := { chars := [' '] } }] },
    by decide +kernel, by decide +kernel, ⟨_, _, rfl⟩, List.nodup_singleton _⟩

theorem parse_broken_letters : ∃ d : Definition,
    d.lines = ["enum E : byte \x7b A, B \x7d".toList] ∧ d.OpensWithValue ∧
    ((declared "" [.type d]).map Prod.fst).Nodup ∧
    (parse "enum E : byte \n\x7b A, B \x7d // \x7b" = parse "enum E : byte \x7b A, B \x7d" ↔
      ¬ d.OpensWithValue) := by
  obtain ⟨d, hlines, hbrokenLines, hvalue, hnames⟩ := exists_letters
  have hjoined : cutList '\n' "enum E : byte \x7b A, B \x7d".toList =
      ["enum E : byte \x7b A, B \x7d".toList] := by decide +kernel
  have hbroken : cutList '\n' "enum E : byte \n\x7b A, B \x7d // \x7b".toList =
      ["enum E : byte ".toList, "\x7b A, B \x7d // \x7b".toList] := by decide +kernel
  have hspace : ∀ c ∈ [' '], Text.isBlank c = true := List.forall_mem_singleton.mpr (by decide)
  refine ⟨d, hlines, hvalue, hnames, ?_⟩
  refine @parse_broken_iff [] [] d _ _ hnames ?_ ?_
  · rw [hjoined, List.nil_append, List.flatMap_singleton, Declaration.lines, hlines]
    exact .refl _
  · rw [hbroken, brokenLines, hbrokenLines]
    exact .same _ (.line "\x7b A, B \x7d".toList [] [' '] (some " \x7b".toList)
      (List.forall_mem_nil _) hspace (by decide) .nil)

/-- **The value next to the brace is lost**, and the one behind it gets its number. -/
theorem parse_broken_ne_letters :
    definitionsIn "enum E : byte \x7b A, B \x7d" =
        [("E", ⟨.enum, "", some .int8, [⟨"A", 0⟩, ⟨"B", 1⟩], []⟩)] ∧
      definitionsIn "enum E : byte \n\x7b A, B \x7d" =
        [("E", ⟨.enum, "", some .int8, [⟨"B", 0⟩], []⟩)] ∧
      parse "enum E : byte \n\x7b A, B \x7d" ≠ parse "enum E : byte \x7b A, B \x7d" := by
  have hjoined : definitionsIn "enum E : byte \x7b A, B \x7d" =
      [("E", ⟨.enum, "", some .int8, [⟨"A", 0⟩, ⟨"B", 1⟩], []⟩)] := by decide +kernel
  have hbroken : definitionsIn "enum E : byte \n\x7b A, B \x7d" =
      [("E", ⟨.enum, "", some .int8, [⟨"B", 0⟩], []⟩)] := by decide +kernel
  refine ⟨hjoined, hbroken, ?_⟩
  rw [parse, parse, hjoined, hbroken]
  exact @ofDefinitions_ne [] [] _ _ _ (List.nodup_singleton _) (by decide)

end Bindery.Schema.Source
