import Bindery.Proofs.Names.Schema
import Bindery.Proofs.Schema.Forming

/-!
# What references refer to

A field refers to another type by name, on its own or as the element of a vector. A reference
without a dot is meant for the namespace of its definition. Completion does not know which
references are complete already: it takes a reference for complete when some type has it as its
whole name. A type outside of all namespaces has such a name, and hides the type of the same name in
the namespace.

Every definition that a scan takes down stands under its local name behind its namespace
(`located_of_mem_definitionsIn`), and a local name has no dot. So whether a namespace declares a
type can be read off the names of the definitions (`declaredIn_iff`), and that is all that
completion looks at.

* `resolves_in_scope_iff` — a reference without a dot, to a type that the namespace declares, is
  completed to that type exactly when no type outside of all namespaces has the same name; otherwise
  it stays as it is written, and refers to the type outside.
-/

namespace Bindery

/-! ### References in field types -/

namespace FieldType

/-- The name that a field refers to, on its own or as the element of a vector. -/
def target? : FieldType → Option String
  | named name => some name
  | vector element => element.target?
  | _ => none

/-- The field type with another name to refer to. -/
def retarget (name : String) : FieldType → FieldType
  | named _ => named name
  | vector element => vector (element.retarget name)
  | t => t

variable {t : FieldType} {name : String}

theorem retarget_eq_self (h : t.target? = some name) : t.retarget name = t := by
  induction t with
  | primitive p => cases h
  | string => cases h
  | vector element ih => rw [retarget, ih h]
  | named n => rw [retarget, Option.some.inj h]

theorem retarget_inj (h : t.target? = some name) {a b : String} :
    t.retarget a = t.retarget b ↔ a = b := by
  induction t with
  | primitive p => cases h
  | string => cases h
  | vector element ih => rw [retarget, retarget, vector.injEq, ih h]
  | named n => rw [retarget, retarget, named.injEq]

end FieldType

namespace Schema

/-- **Completion changes the name that a field refers to**, in brackets or not. -/
theorem qualifyType_eq_retarget {t : FieldType} {name : String} (h : t.target? = some name)
    (known : List String) (scope : String) :
    qualifyType known scope t = t.retarget (qualifyName known scope name) := by
  induction t with
  | primitive p => cases h
  | string => cases h
  | vector element ih => rw [qualifyType, FieldType.retarget, ih h]
  | named n => rw [qualifyType, FieldType.retarget, Option.some.inj h]

/-! ### Local names -/

/-- **A local name** has no dot. -/
def IsLocal (name : String) : Prop := '.' ∉ name.toList

instance (name : String) : Decidable (IsLocal name) :=
  inferInstanceAs (Decidable ('.' ∉ name.toList))

/-- Behind the last dot, two equal lists are equal, and so they are in front of it. -/
theorem append_dot_inj {as as' bs bs' : List Char} (hb : '.' ∉ bs) (hb' : '.' ∉ bs')
    (h : as ++ '.' :: bs = as' ++ '.' :: bs') : as = as' ∧ bs = bs' := by
  -- read backwards the last dot is the first one
  have hreverse := congrArg List.reverse h
  rw [List.reverse_append, List.reverse_append, List.reverse_cons, List.reverse_cons,
    List.append_assoc, List.append_assoc] at hreverse
  have hcut : ∀ {cs : List Char} (rest : List Char), '.' ∉ cs →
      (cs.reverse ++ (['.'] ++ rest)).takeWhile (· ≠ '.') = cs.reverse := by
    intro cs rest hcs
    rw [List.takeWhile_append_of_pos fun c hc => ?_]
    · simp
    · rw [decide_eq_true_eq]
      rintro rfl
      exact hcs (List.mem_reverse.mp hc)
  have hbs : bs = bs' := by
    rw [← List.reverse_inj, ← hcut as.reverse hb, ← hcut as'.reverse hb', hreverse]
  rw [hbs] at h
  exact ⟨List.append_cancel_right h, hbs⟩

/-- **A qualified name tells its namespace** and its local name. -/
theorem qualifiedName_inj {scope scope' name name' : String} (hn : IsLocal name)
    (hn' : IsLocal name') :
    qualifiedName scope name = qualifiedName scope' name' ↔ scope = scope' ∧ name = name' := by
  have hlist : ∀ s n : String, (s ++ "." ++ n).toList = s.toList ++ '.' :: n.toList := by
    intro s n
    rw [String.toList_append, String.toList_append, List.append_assoc]
    rfl
  -- a local name is no name in a namespace
  have hdot : ∀ {s n m : String}, IsLocal m → s ++ "." ++ n ≠ m := by
    rintro s n m hm rfl
    refine hm ?_
    rw [hlist]
    exact List.mem_append_right _ List.mem_cons_self
  refine ⟨fun h => ?_, fun ⟨hs, hname⟩ => by rw [hs, hname]⟩
  unfold qualifiedName at h
  split at h
  next hs =>
    split at h
    next hs' => exact ⟨hs.trans hs'.symm, h⟩
    next => exact absurd h.symm (hdot hn)
  next =>
    split at h
    next => exact absurd h (hdot hn')
    next =>
      have hchars := congrArg String.toList h
      rw [hlist, hlist] at hchars
      obtain ⟨hs, hname⟩ := append_dot_inj hn hn' hchars
      exact ⟨String.toList_inj.mp hs, String.toList_inj.mp hname⟩

theorem isLocal_of_headerOf? {line : List Char} {h : Header} (hh : headerOf? line = some h) :
    IsLocal h.name := by
  simp only [headerOf?, Option.bind_eq_bind, Option.bind_eq_some_iff, Option.some.injEq] at hh
  obtain ⟨⟨kind, _⟩, -, _, -, ⟨name, rest⟩, hname, rfl⟩ := hh
  have hspelled : Spelled Char.isUpper Char.isAlphanum (String.ofList name) := by
    refine spelled_of_name? hname (fun _ => id) (fun c hc => ?_) fun _ => id
    simp [Char.isAlphanum, Char.isAlpha, hc]
  intro hdot
  exact absurd (hspelled.all '.' hdot) (by decide)

/-! ### Definitions under their local names -/

/-- The entry stands under a local name, behind its namespace. -/
def Located (e : String × TypeDef) : Prop :=
  ∃ name, IsLocal name ∧ e.1 = qualifiedName e.2.scope name

/-- What an open definition would be if it were closed here. -/
def Unclosed.entry (u : Unclosed) : String × TypeDef := (u.name, u.type)

/-- A piece of a body changes neither the name of a definition nor its namespace. -/
theorem located_addBody {u : Unclosed} (h : Located u.entry) (body : List Char) :
    Located (u.addBody body).entry := by
  unfold Unclosed.addBody
  split
  · exact h
  · exact h
  · exact h
  · exact h

theorem located_addLine {u : Unclosed} (h : Located u.entry) (line : List Char) :
    Located (u.addLine line).entry :=
  located_addBody (u := { u with
    depth := u.depth + braceBalance line
    entered := u.entered || line.contains '\x7b' }) h _

theorem located_ofHeader {line : List Char} {h : Header} (hh : headerOf? line = some h)
    (scope : String) : Located (Unclosed.ofHeader scope h line).entry :=
  located_addBody ⟨h.name, isLocal_of_headerOf? hh, rfl⟩ _

namespace Scan

/-- **The invariant of a scan**: what was taken down stands under its local name. -/
structure Located (s : Scan) : Prop where
  found : ∀ e ∈ s.found, Schema.Located e
  unclosed : ∀ u, s.unclosed = some u → Schema.Located u.entry

theorem Located.settle {s : Scan} (h : s.Located) {u : Unclosed} (hu : Schema.Located u.entry) :
    (s.settle u).Located := by
  unfold Scan.settle
  split
  · refine ⟨fun e he => ?_, fun u hu => absurd hu (Option.some_ne_none u).symm⟩
    rcases List.mem_append.mp he with he | he
    · exact h.found e he
    · obtain rfl := List.mem_singleton.mp he
      exact hu
  · refine ⟨h.found, ?_⟩
    rintro _ ⟨⟩
    exact hu

/-- **One line keeps the invariant.** -/
theorem Located.addLine {s : Scan} (h : s.Located) (line : List Char) :
    (s.addLine line).Located := by
  unfold Scan.addLine
  split
  · next u hu =>
    have hopen : Schema.Located u.entry := h.unclosed u hu
    exact h.settle (located_addLine hopen line)
  · split
    · exact ⟨h.found, h.unclosed⟩
    · split
      · next header hheader => exact h.settle (located_ofHeader hheader s.scope)
      · exact h

/-- **All lines keep the invariant.** -/
theorem Located.addLines {s : Scan} (h : s.Located) (lines : List String) :
    (lines.foldl (fun s l => s.addLine (withoutComment l.toList)) s).Located := by
  induction lines generalizing s with
  | nil => exact h
  | cons line lines ih => exact ih (h.addLine _)

end Scan

/-- **Every definition in a text stands under its local name**, behind its namespace. -/
theorem located_of_mem_definitionsIn {text : String} {e : String × TypeDef}
    (h : e ∈ definitionsIn text) : Located e := by
  have hstart : ({} : Scan).Located := by
    refine ⟨fun e he => ?_, fun u hu => ?_⟩
    · exact absurd he List.not_mem_nil
    · exact absurd hu (Option.some_ne_none u).symm
  have hend := hstart.addLines (Text.lines text)
  rcases List.mem_append.mp h with h | h
  · exact hend.found e h
  · obtain ⟨u, hu, rfl⟩ := Option.map_eq_some_iff.mp (Option.mem_toList.mp h)
    exact hend.unclosed u hu

/-! ### What completion refers to -/

/-- **The text declares a type of this local name in this namespace**; the empty one is no
namespace at all. -/
def DeclaredIn (text scope name : String) : Prop :=
  ∃ e ∈ definitionsIn text, e.2.scope = scope ∧ e.1 = qualifiedName scope name

/-- The names of all types that the text declares. -/
def namesIn (text : String) : List String := (definitionsIn text).map Prod.fst

/-- Declared types are told by their qualified names. -/
theorem declaredIn_iff {text name : String} (hname : IsLocal name) (scope : String) :
    DeclaredIn text scope name ↔ qualifiedName scope name ∈ namesIn text := by
  constructor
  · rintro ⟨e, he, -, hqualified⟩
    exact List.mem_map.mpr ⟨e, he, hqualified⟩
  · intro h
    obtain ⟨e, he, hqualified⟩ := List.mem_map.mp h
    obtain ⟨name', hname', hlocated⟩ := located_of_mem_definitionsIn he
    rw [hlocated, qualifiedName_inj hname' hname] at hqualified
    obtain ⟨hscope, rfl⟩ := hqualified
    exact ⟨e, he, hscope, by rw [hlocated, hscope]⟩

variable {text scope name : String}

/-- Outside of all namespaces a name is known when a type is declared there. -/
theorem contains_iff_declaredIn (hname : IsLocal name) :
    (namesIn text).contains name = true ↔ DeclaredIn text "" name := by
  rw [List.contains_iff_mem, declaredIn_iff hname]
  rfl

/-- A type outside of all namespaces hides the one in the namespace. -/
theorem qualifyName_of_hidden (hname : IsLocal name) (hidden : DeclaredIn text "" name) :
    qualifyName (namesIn text) scope name = name := by
  rw [qualifyName, (contains_iff_declaredIn hname).mpr hidden, Bool.or_true, if_pos rfl]

/-- Completion reaches the type in the namespace where nothing hides it. -/
theorem qualifyName_of_not_hidden (hname : IsLocal name) (hdeclared : DeclaredIn text scope name)
    (hidden : ¬ DeclaredIn text "" name) :
    qualifyName (namesIn text) scope name = qualifiedName scope name := by
  have hscope : scope ≠ "" := by
    rintro rfl
    exact hidden hdeclared
  have hmem : qualifiedName scope name ∈ namesIn text := (declaredIn_iff hname scope).mp hdeclared
  rw [qualifiedName, if_neg hscope] at hmem ⊢
  rw [qualifyName, if_neg, if_pos (List.contains_iff_mem.mpr hmem)]
  rw [Bool.or_eq_true, decide_eq_true_eq, contains_iff_declaredIn hname]
  exact not_or.mpr ⟨hscope, hidden⟩

/-- **Where completion reaches the type in the namespace.** -/
theorem qualifyName_eq_qualifiedName_iff (hname : IsLocal name)
    (hdeclared : DeclaredIn text scope name) :
    qualifyName (namesIn text) scope name = qualifiedName scope name ↔
      scope = "" ∨ ¬ DeclaredIn text "" name := by
  by_cases hidden : DeclaredIn text "" name
  · rw [qualifyName_of_hidden hname hidden, or_iff_left (not_not.mpr hidden)]
    -- the reference itself is the qualified name outside of all namespaces
    have hself : qualifiedName "" name = qualifiedName scope name ↔ "" = scope ∧ name = name :=
      qualifiedName_inj hname hname
    exact hself.trans ((and_iff_left rfl).trans eq_comm)
  · exact iff_of_true (qualifyName_of_not_hidden hname hdeclared hidden) (.inr hidden)

/-- **Every definition of a text that forms a schema is in the schema**, completed. -/
theorem get?_of_parse {types : Schema} (parsed : parse text = .ok types) {n : String} {d : TypeDef}
    (declared : (n, d) ∈ definitionsIn text) :
    types.get? n = some (qualifyDef (namesIn text) d) := by
  rw [Keyed.get?_eq_some_iff]
  exact (ofDefinitions_eq_ok_iff.mp parsed).2.mem_iff.mpr (List.mem_map_of_mem declared)

/-- **References to types of the namespace.** Every definition of a text that forms a schema is in
the schema, with the same fields in the same order. Where a field, or the element of its vector, is
written as a name without a dot, and the namespace of the definition declares a type of that name,
the field refers to that type exactly when the definition is outside of all namespaces or no type
outside of them has this name. If one has, the field stays as it is written and refers to it. -/
theorem resolves_in_scope_iff {text : String} {types : Schema} (parsed : parse text = .ok types)
    {n : String} {d : TypeDef} (declared : (n, d) ∈ definitionsIn text) :
    ∃ d' : TypeDef, types.get? n = some d' ∧ d'.kind = d.kind ∧ d'.scope = d.scope ∧
      d'.fields.length = d.fields.length ∧
      ∀ (i : Nat) (f : Field) (name : String), d.fields[i]? = some f →
        f.type.target? = some name → IsLocal name → DeclaredIn text d.scope name →
        (d'.fields[i]? = some { f with type := f.type.retarget (qualifiedName d.scope name) } ↔
          d.scope = "" ∨ ¬ DeclaredIn text "" name) ∧
        (DeclaredIn text "" name → d'.fields[i]? = some f) := by
  refine ⟨qualifyDef (namesIn text) d, get?_of_parse parsed declared, rfl, rfl,
    List.length_map _, ?_⟩
  intro i f name hf htarget hname hdeclared
  have hfield : (qualifyDef (namesIn text) d).fields[i]? =
      some { f with type := f.type.retarget (qualifyName (namesIn text) d.scope name) } := by
    rw [qualifyDef, List.getElem?_map, hf, Option.map_some, qualifyType_eq_retarget htarget]
  rw [hfield]
  constructor
  -- Completed means that the completion of the name is the one in the declaring namespace.
  · rw [Option.some.injEq, Field.mk.injEq, and_iff_right rfl, FieldType.retarget_inj htarget]
    exact qualifyName_eq_qualifiedName_iff hname hdeclared
  · intro hidden
    rw [qualifyName_of_hidden hname hidden, FieldType.retarget_eq_self htarget]

/-- A drawing with two types of the name `Point`, one of them outside of all namespaces, and one
`Pen`. -/
def drawingText : String :=
  "struct Point \x7b x: double; \x7d\nnamespace Geo;\nstruct Point \x7b x: float; \x7d\n" ++
    "struct Pen \x7b width: float; \x7d\nstruct Line \x7b pen: Pen; ends: [Point]; \x7d\n"

/-- The line of the drawing, as it is written. -/
def drawnLine : TypeDef where
  kind := .struct
  scope := "Geo"
  fields := [⟨"pen", .named "Pen"⟩, ⟨"ends", .vector (.named "Point")⟩]

theorem definitionsIn_drawing : definitionsIn drawingText =
    [("Point", { kind := .struct, fields := [⟨"x", .primitive .float64⟩] }),
      ("Geo.Point", { kind := .struct, scope := "Geo", fields := [⟨"x", .primitive .float32⟩] }),
      ("Geo.Pen", { kind := .struct, scope := "Geo", fields := [⟨"width", .primitive .float32⟩] }),
      ("Geo.Line", drawnLine)] := by
  rw [definitionsIn_eq]
  unfold drawingText
  rw [String.toList_append, String.toList_ofList, String.toList_ofList]
  decide +kernel

theorem exists_parse_drawing : ∃ types, parse drawingText = .ok types := by
  have hnodup : ((definitionsIn drawingText).map Prod.fst).Nodup := by
    rw [definitionsIn_drawing]
    decide
  obtain ⟨types, hparse, -⟩ := exists_ofDefinitions hnodup
  exact ⟨types.qualify, hparse⟩

theorem mem_definitionsIn_drawing : ("Geo.Line", drawnLine) ∈ definitionsIn drawingText := by
  rw [definitionsIn_drawing]
  decide

theorem declaredIn_drawing_iff {scope name : String} (hname : IsLocal name) :
    DeclaredIn drawingText scope name ↔
      qualifiedName scope name ∈ ["Point", "Geo.Point", "Geo.Pen", "Geo.Line"] := by
  rw [declaredIn_iff hname, namesIn, definitionsIn_drawing]
  rfl

/-- The pen is found in the namespace, the points are not. -/
theorem resolves_in_scope_iff_drawing :
    ∃ types line, parse drawingText = .ok types ∧ types.get? "Geo.Line" = some line ∧
      DeclaredIn drawingText "Geo" "Pen" ∧ ¬ DeclaredIn drawingText "" "Pen" ∧
      line.fields[0]? = some ⟨"pen", .named "Geo.Pen"⟩ ∧
      DeclaredIn drawingText "Geo" "Point" ∧ DeclaredIn drawingText "" "Point" ∧
      line.fields[1]? = some ⟨"ends", .vector (.named "Point")⟩ := by
  have hpen : IsLocal "Pen" := by decide
  have hpoint : IsLocal "Point" := by decide
  have hpenGeo : DeclaredIn drawingText "Geo" "Pen" := (declaredIn_drawing_iff hpen).mpr (by decide)
  have hpenRoot : ¬ DeclaredIn drawingText "" "Pen" :=
    fun h => absurd ((declaredIn_drawing_iff hpen).mp h) (by decide)
  have hpointGeo : DeclaredIn drawingText "Geo" "Point" :=
    (declaredIn_drawing_iff hpoint).mpr (by decide)
  have hpointRoot : DeclaredIn drawingText "" "Point" :=
    (declaredIn_drawing_iff hpoint).mpr (by decide)
  -- The drawing is read once; its two fields go the two ways of the theorem.
  obtain ⟨types, hparse⟩ := exists_parse_drawing
  obtain ⟨line, hline, -, -, -, hfields⟩ := resolves_in_scope_iff hparse mem_definitionsIn_drawing
  exact ⟨types, line, hparse, hline, hpenGeo, hpenRoot,
    (hfields 0 _ "Pen" rfl rfl hpen hpenGeo).1.mpr (.inr hpenRoot), hpointGeo, hpointRoot,
    (hfields 1 _ "Point" rfl rfl hpoint hpointGeo).2 hpointRoot⟩

/-- **A type outside of all namespaces hides one in the namespace**: the line is in the namespace
`Geo`, which declares a `Point`, and its ends are written as `Point`, but in the schema they are not
of the type `Geo.Point`. -/
theorem hidden_point_drawing :
    ∃ types, parse drawingText = .ok types ∧
      ("Geo.Line", drawnLine) ∈ definitionsIn drawingText ∧
      drawnLine.scope = "Geo" ∧ drawnLine.fields[1]? = some ⟨"ends", .vector (.named "Point")⟩ ∧
      DeclaredIn drawingText "Geo" "Point" ∧
      ¬ ∃ line, types.get? "Geo.Line" = some line ∧
        line.fields[1]? = some ⟨"ends", .vector (.named "Geo.Point")⟩ := by
  obtain ⟨types, hparse⟩ := exists_parse_drawing
  have hpoint : DeclaredIn drawingText "Geo" "Point" :=
    (declaredIn_drawing_iff (by decide)).mpr (by decide)
  refine ⟨types, hparse, mem_definitionsIn_drawing, rfl, rfl, hpoint, ?_⟩
  rintro ⟨line, hline, hends⟩
  rw [get?_of_parse hparse mem_definitionsIn_drawing, namesIn, definitionsIn_drawing] at hline
  -- the entry of the line has its ends as they are written
  obtain rfl := Option.some.inj hline
  exact absurd hends (by decide)

end Schema

end Bindery
