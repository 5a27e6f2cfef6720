import Bindery.Proofs.Schema.Comments
import Bindery.Proofs.Schema.Parsing

/-!
# The numbers of values

The values of an enumeration are numbered in the order in which they are written, however they are
spread over lines: a line may end behind the opening brace, behind any comma and in front of the
closing brace, there may be a comma behind the last value, and comments may hold braces and commas.
A value has the number that it names, or else one more than the value before it, and the first one
has 0 (`Numbered`). The counter that goes from line to line yields these numbers
(`numbered_valuesFrom`), and what stands before and behind the enumeration does not matter, if it is
a schema or not, as long as no definition is open before it (`exists_found_readLines`).

* `values_numbered` — the scanner finds the enumeration with these values, and so does the schema.
-/

namespace Bindery.Schema

/-! ### What has been found -/

/-- A line leaves what has been found before it. -/
theorem exists_found_addLine (s : Scan) (line : List Char) :
    ∃ more, (s.addLine line).found = s.found ++ more := by
  -- A line adds the definition that it settles, and otherwise nothing.
  have hsettle : ∀ u : Unclosed, ∃ more, (s.settle u).found = s.found ++ more := by
    intro u
    rw [Scan.settle]
    split
    · exact ⟨[(u.name, u.type)], rfl⟩
    · exact ⟨[], (List.append_nil s.found).symm⟩
  rw [Scan.addLine]
  split
  next u _ => exact hsettle _
  next =>
    split
    next scope _ => exact ⟨[], (List.append_nil s.found).symm⟩
    next =>
      split
      next header _ => exact hsettle _
      next => exact ⟨[], (List.append_nil s.found).symm⟩

/-- **What has been found stays found**, whatever comes behind it. -/
theorem exists_found_readLines (s : Scan) (ls : List (List Char)) :
    ∃ more, (readLines s ls).found = s.found ++ more := by
  induction ls generalizing s with
  | nil => exact ⟨[], (List.append_nil s.found).symm⟩
  | cons l ls ih =>
    obtain ⟨more, hmore⟩ := exists_found_addLine s (withoutComment l)
    obtain ⟨rest, hrest⟩ := ih (s.addLine (withoutComment l))
    exact ⟨more ++ rest, hrest.trans (by rw [hmore, List.append_assoc])⟩

namespace Source

open Text (cutList)

/-! ### Numbers -/

/-- The values of an enumeration as they are written, whichever lines they are on. -/
def Definition.enumerators (d : Definition) : List Enumerator :=
  (d.first :: d.more).flatMap BodyLine.enumerators

/-- **Values are numbered** as they are written. -/
structure Numbered (start : Int) (es : List Enumerator) (vs : List EnumValue) : Prop where
  /-- There are exactly the values that are written, in order. -/
  names : vs.map EnumValue.name = es.map fun e => e.name.text
  /-- A value has the number that it names. -/
  named : ∀ (i : Nat) e v n, es[i]? = some e → vs[i]? = some v → e.number? = some n → v.value = n
  /-- The first value has the start as its number if it names none. -/
  first : ∀ e v, es[0]? = some e → vs[0]? = some v → e.number? = none → v.value = start
  /-- A further value has one more than the value before it if it names none. -/
  next : ∀ (i : Nat) e v w, es[i + 1]? = some e → vs[i]? = some v → vs[i + 1]? = some w →
    e.number? = none → w.value = v.value + 1

theorem numbered_valuesFrom (start : Int) (es : List Enumerator) :
    Numbered start es (valuesFrom start es) := by
  induction es generalizing start with
  | nil => exact ⟨rfl, nofun, nofun, nofun⟩
  | cons e es ih =>
    obtain ⟨hnames, hnamed, hfirst, hnext⟩ := ih (e.number?.getD start + 1)
    rw [valuesFrom]
    -- The four laws concern the names, the numbers that are written, the start and the steps.
    refine ⟨congrArg (e.name.text :: ·) hnames, ?_, ?_, ?_⟩
    · rintro (_ | i) e' v n he hv hn
      · cases he
        cases hv
        rw [hn]
        rfl
      · exact hnamed i e' v n he hv hn
    · intro e' v he hv hn
      cases he
      cases hv
      rw [hn]
      rfl
    · rintro (_ | i) e' v w he hv hw hn
      · -- the second value is the first one of the rest, which starts behind the first
        cases hv
        exact hfirst e' w he hw hn
      · exact hnext i e' v w he hv hw hn

/-! ### Enumerations -/

/-- **The values of an enumeration are numbered as they are written**, wherever the enumeration
stands in a text, and however it is broken into lines: a line of its body is any list of values and
blanks between commas. If no other definition has its name, the schema has it with these values. -/
theorem values_numbered {d : Definition} (hkind : d.kind = .enum) {before after : List (List Char)}
    (hbefore : (readLines {} before).unclosed = none) {text : String}
    (h : Annotated (before ++ (d.lines ++ after)) (cutList '\n' text.toList)) :
    ∃ (t : TypeDef) (later : List (String × TypeDef)),
      t.kind = .enum ∧ Numbered 0 d.enumerators t.values ∧
      definitionsIn text = (readLines {} before).found ++
        (qualifiedName (readLines {} before).scope d.name.text, t) :: later ∧
      (((definitionsIn text).map Prod.fst).Nodup →
        ∃ types t', parse text = .ok types ∧
          types.get? (qualifiedName (readLines {} before).scope d.name.text) = some t' ∧
          t'.kind = .enum ∧ t'.values = t.values) := by
  set s := readLines {} before with hs
  -- the lines of the definition add this one type to what was found before
  have hlines : readLines s d.lines =
      { s with found := s.found ++ [(qualifiedName s.scope d.name.text, d.type s.scope)] } := by
    have hdefinition : ∀ line ∈ d.lines, IsLine line := isLine_of_mem_lines (d := .type d)
    rw [readLines_eq_foldl hdefinition, foldl_definition d s hbefore]
  -- and the lines behind it only add more
  obtain ⟨later, hlater⟩ : ∃ later, definitionsIn text =
      s.found ++ (qualifiedName s.scope d.name.text, d.type s.scope) :: later := by
    rw [definitionsIn_annotated h, readLines_append, readLines_append, ← hs, hlines]
    obtain ⟨more, hmore⟩ := exists_found_readLines
      { s with found := s.found ++ [(qualifiedName s.scope d.name.text, d.type s.scope)] } after
    rw [Scan.definitions, hmore, List.append_assoc, List.append_assoc]
    exact ⟨_, rfl⟩
  refine ⟨d.type s.scope, later, hkind, numbered_valuesFrom 0 d.enumerators, hlater, ?_⟩
  intro hnames
  obtain ⟨types, hok, hperm⟩ := exists_ofDefinitions hnames
  have hmem : (qualifiedName s.scope d.name.text, d.type s.scope) ∈ definitionsIn text := by
    rw [hlater]
    exact List.mem_append_right _ List.mem_cons_self
  exact ⟨types.qualify, _, hok, get?_qualify hperm hmem, hkind, rfl⟩

/-- There is an enumeration of three values on two lines between its braces. -/
theorem exists_dial : ∃ d : Definition, d.kind = .enum ∧ d.name.text = "D" ∧
    d.lines =
      ["enum D: ubyte \x7b".toList, "\tA, B =-4,".toList, "\tC".toList, "\x7d".toList] ∧
    (d.enumerators.map fun e => (e.name.text, e.number?)) =
      [("A", none), ("B", some (-4)), ("C", none)] := by
  refine ⟨
    { kind := .enum
      name := { head := 'D' }
      base := some ({}, { chars := [' '] }, { head := 'u', tail := ['b', 'y', 't', 'e'] })
      first := .values [.blank {}]
      more :=
        [.values
          [.value { lead := { chars := ['\t'] }, name := { head := 'A' } },
           .value
            { lead := { chars := [' '] }, name := { head := 'B' }, behind := { chars := [' '] }
              number := some ({}, { negative := true, digits := ['4'] }, {}) },
           .blank {}],
         .values [.value { lead := { chars := ['\t'] }, name := { head := 'C' } }],
         .values [.blank {}]] },
    rfl, rfl, by decide +kernel, by decide +kernel⟩

/-- The enumeration in a namespace, with comments and blank lines. -/
def dialText : String :=
  "namespace a;\nenum D: ubyte \x7b// A, \x7d\n\tA, B =-4,// 3,\r\n\n\tC //\n\x7d"

theorem values_numbered_dial : ∃ d : Definition, d.kind = .enum ∧
    (d.enumerators.map fun e => (e.name.text, e.number?)) =
      [("A", none), ("B", some (-4)), ("C", none)] ∧
    ∃ (t : TypeDef) (later : List (String × TypeDef)),
      t.kind = .enum ∧ Numbered 0 d.enumerators t.values ∧
      definitionsIn dialText = (readLines {} ["namespace a;".toList]).found ++
        (qualifiedName (readLines {} ["namespace a;".toList]).scope "D", t) :: later ∧
      (((definitionsIn dialText).map Prod.fst).Nodup →
        ∃ types t', parse dialText = .ok types ∧
          types.get? (qualifiedName (readLines {} ["namespace a;".toList]).scope "D") = some t' ∧
          t'.kind = .enum ∧ t'.values = t.values) := by
  obtain ⟨d, hkind, hname, hlines, hvalues⟩ := exists_dial
  have hbefore : (readLines {} ["namespace a;".toList]).unclosed = none := by decide +kernel
  have htext : cutList '\n' dialText.toList =
      ["namespace a;".toList, "enum D: ubyte \x7b// A, \x7d".toList,
        "\tA, B =-4,// 3,\r".toList, [], "\tC //".toList, "\x7d".toList] := by
    decide +kernel
  have hspace : ∀ c ∈ [' '], Text.isBlank c = true := List.forall_mem_singleton.mpr (by decide)
  have hnil : ∀ c ∈ [], Text.isBlank c = true := List.forall_mem_nil _
  refine ⟨d, hkind, hvalues, ?_⟩
  rw [← hname]
  refine @values_numbered d hkind ["namespace a;".toList] [] hbefore dialText ?_
  rw [hlines, htext]
  -- The text against the plain one: remarks behind lines, and an empty line between values.
  refine .same _ (.line "enum D: ubyte \x7b".toList [] [] (some " A, \x7d".toList) hnil hnil
    (by decide) ?_)
  refine .line "\tA, B =-4,".toList [] [] (some " 3,\r".toList) hnil hnil (by decide) ?_
  refine .insert [] none hnil (.line "\tC".toList [] [' '] (some []) hnil hspace (by decide) ?_)
  exact .same _ .nil

end Source

end Bindery.Schema
