import Bindery.Proofs.Names.Basic
import Bindery.Schema.Files

/-!
# The names of a schema

A schema is scanned line by line, and each phrase that the scanner looks for has its own
class of names. So every name that a scan takes down is plain, or plain but for dots, and
the scanner keeps this along the lines of a text (`Scan.WellNamed.addLine`). Completing
references brings in no other names than those of types. The one place where anything can
stand is between the brackets of a vector: a reference there is as it is written.

* `Scan.WellNamed.addLines` — what a whole scan takes down;
* `Schema.IsRead.wellNamed` — the names of every schema that is read from a text or from
  files.
-/

namespace Bindery

open Schema

/-! ### What is well named -/

/-- The field has a plain name, and so, dots aside, has a type that it refers to outside of
brackets. -/
structure Field.WellNamed (f : Field) : Prop where
  name : IsPlain f.name
  reference : ∀ n, f.type = .named n → IsDotted n

structure TypeDef.WellNamed (d : TypeDef) : Prop where
  values : ∀ v ∈ d.values, IsPlain v.name
  fields : ∀ f ∈ d.fields, f.WellNamed

namespace Schema

/-- **A definition under the name of a type**, with plain names inside. -/
structure Declares (e : String × TypeDef) : Prop where
  name : IsTypeName e.1
  type : e.2.WellNamed

/-- **The definitions of the schema are well named.** -/
def WellNamed (types : Schema) : Prop := ∀ e ∈ types.entries, Declares e

/-! ### Phrases -/

theorem isDottedTail_of_isAlpha {c : Char} (h : c.isAlpha = true) : isDottedTail c = true :=
  isDottedTail_of_isNameTail (isNameTail_of_isNameStart (isNameStart_of_isAlpha h))

theorem isTypeName_of_namespaceOf? {line : List Char} {scope : String}
    (h : namespaceOf? line = some scope) : IsTypeName scope := by
  simp only [namespaceOf?, Option.bind_eq_bind, Option.bind_eq_some_iff] at h
  obtain ⟨_, -, _, -, ⟨name, rest⟩, hname, h⟩ := h
  split at h
  · obtain rfl := Option.some.inj h
    exact spelled_of_name? hname (fun _ => id) (fun _ => isDottedTail_of_isAlpha) fun _ => id
  · cases h

theorem isTypeName_of_headerOf? {line : List Char} {h : Header} (hh : headerOf? line = some h) :
    IsTypeName h.name := by
  simp only [headerOf?, Option.bind_eq_bind, Option.bind_eq_some_iff, Option.some.injEq] at hh
  obtain ⟨⟨kind, _⟩, -, _, -, ⟨name, rest⟩, hname, rfl⟩ := hh
  have halpha : ∀ c : Char, c.isUpper = true → c.isAlpha = true := fun c hc => by
    simp [Char.isAlpha, hc]
  exact spelled_of_name? hname halpha (fun c hc => isDottedTail_of_isAlpha (halpha c hc))
    fun c hc => isDottedTail_of_isNameTail (isNameTail_of_isAlphanum hc)

theorem isPlain_of_enumItemOf? {piece : List Char} {item : EnumItem}
    (h : enumItemOf? piece = some item) : IsPlain item.name := by
  simp only [enumItemOf?, Option.bind_eq_bind, Option.bind_eq_some_iff] at h
  obtain ⟨⟨name, rest⟩, hname, h⟩ := h
  have hplain : IsPlain (String.ofList name) :=
    spelled_of_name? hname (fun _ => id) (fun _ => isNameTail_of_isNameStart) fun _ => id
  -- With a number or without one, the name is the word at the front.
  dsimp only at h
  split at h
  · obtain rfl := Option.some.inj h
    exact hplain
  · obtain ⟨⟨number, after⟩, -, h⟩ := Option.bind_eq_some_iff.mp h
    dsimp only at h
    split at h
    · obtain rfl := Option.some.inj h
      exact hplain
    · cases h
  · cases h

/-- Numbering leaves the names as they are. -/
theorem exists_of_mem_numberFrom {items : List EnumItem} {next : Int} {v : EnumValue}
    (h : v ∈ numberFrom next items) : ∃ item ∈ items, v.name = item.name := by
  induction items generalizing next with
  | nil => cases h
  | cons item items ih =>
    rcases List.mem_cons.mp h with rfl | h
    · exact ⟨item, List.mem_cons_self, rfl⟩
    · obtain ⟨item', hmem, hname⟩ := ih h
      exact ⟨item', List.mem_cons_of_mem _ hmem, hname⟩

theorem isPlain_of_mem_values {body : List Char} {next : Int} {v : EnumValue}
    (h : v ∈ numberFrom next (enumItems body)) : IsPlain v.name := by
  obtain ⟨item, hitem, hname⟩ := exists_of_mem_numberFrom h
  obtain ⟨piece, -, hpiece⟩ := List.mem_filterMap.mp hitem
  rw [hname]
  exact isPlain_of_enumItemOf? hpiece

/-- A reference is the text that stands there, without brackets around it. -/
theorem eq_of_ofList_named {cs : List Char} {n : String} (h : FieldType.ofList cs = .named n) :
    bracketed? cs = none ∧ n = String.ofList cs := by
  rw [FieldType.ofList] at h
  split at h
  · cases h
  · next hnone =>
    refine ⟨hnone, ?_⟩
    dsimp only at h
    -- The text is neither in brackets nor the name of a scalar or of the text type.
    split at h
    · cases h
    · split at h
      · cases h
      · exact (FieldType.named.inj h).symm

/-- What a bracket closes is bracketed. -/
theorem exists_bracketed_of_closeBracket? {cs type rest : List Char}
    (h : closeBracket? cs = some (type, rest)) : ∃ inner, bracketed? ('[' :: type) = some inner := by
  unfold closeBracket? at h
  split at h
  · split at h
    · cases h
    · obtain ⟨rfl, -⟩ := Prod.mk.inj (Option.some.inj h)
      refine ⟨cs.takeWhile (· ≠ ']'), ?_⟩
      simp [bracketed?, Text.dropPrefixList?]
  · cases h

theorem isDotted_of_typeText? {cs type rest : List Char} {n : String}
    (h : typeText? cs = some (type, rest)) (hn : FieldType.ofList type = .named n) :
    IsDotted n := by
  obtain ⟨hnone, rfl⟩ := eq_of_ofList_named hn
  unfold typeText? at h
  split at h
  · -- a text in brackets is a vector and no reference
    obtain ⟨⟨inner, after⟩, hclose, heq⟩ := Option.map_eq_some_iff.mp h
    obtain ⟨rfl, -⟩ := Prod.mk.inj heq
    obtain ⟨inner', hbracketed⟩ := exists_bracketed_of_closeBracket? hclose
    rw [hnone] at hbracketed
    cases hbracketed
  · exact spelled_of_name? h (fun _ => id)
      (fun c hc => isDottedTail_of_isNameTail (isNameTail_of_isNameStart hc)) fun _ => id

theorem wellNamed_of_fieldAt? {cs rest : List Char} {f : Field}
    (h : fieldAt? cs = some (f, rest)) : f.WellNamed := by
  simp only [fieldAt?, Option.bind_eq_bind, Option.bind_eq_some_iff, Option.some.injEq] at h
  -- A field is a name, a colon and a type; the first and the last are read as names.
  obtain ⟨⟨name, _⟩, hname, _, -, ⟨type, _⟩, htype, _, -, heq⟩ := h
  obtain ⟨rfl, -⟩ := Prod.mk.inj heq
  have hstart : ∀ c : Char, (c.isLower || decide (c = '_')) = true → isNameStart c = true := by
    intro c hc
    rw [Bool.or_eq_true, decide_eq_true_eq] at hc
    rcases hc with hlower | rfl
    · exact isNameStart_of_isLower hlower
    · rfl
  exact ⟨spelled_of_name? hname hstart (fun c hc => isNameTail_of_isNameStart (hstart c hc))
    fun _ => id, fun n hn => isDotted_of_typeText? htype hn⟩

theorem wellNamed_of_mem_fieldsIn {cs : List Char} {f : Field} (h : f ∈ fieldsIn cs) :
    f.WellNamed := by
  fun_induction fieldsIn cs with
  | case1 => cases h
  | case2 c rest field after hfield ih =>
    -- a field begins here, and scanning goes on after its semicolon
    rcases List.mem_cons.mp h with rfl | h
    · exact wellNamed_of_fieldAt? hfield
    · exact ih h
  | case3 c rest hnone ih => exact ih h

/-! ### Scanning -/

theorem isTypeName_qualifiedName {scope name : String} (hscope : scope = "" ∨ IsTypeName scope)
    (hname : IsTypeName name) : IsTypeName (qualifiedName scope name) := by
  unfold qualifiedName
  split
  · exact hname
  · next hne =>
    -- scope, dot and name: only the scope decides how the whole begins
    refine ((hscope.resolve_left hne).append ?_).append hname.all
    intro c hc
    obtain rfl : c = '.' := by simpa using hc
    rfl

namespace Unclosed

/-- A definition that is still open is as well named as one that is closed. -/
def WellNamed (u : Unclosed) : Prop := Declares (u.name, u.type)

/-- **A piece of a body adds plain names.** -/
theorem WellNamed.addBody {u : Unclosed} (h : u.WellNamed) (body : List Char) :
    (u.addBody body).WellNamed := by
  -- structs and tables alike
  have hfields : ∀ f ∈ u.type.fields ++ fieldsIn body, f.WellNamed := by
    intro f hf
    rcases List.mem_append.mp hf with hf | hf
    · exact h.type.fields f hf
    · exact wellNamed_of_mem_fieldsIn hf
  unfold Unclosed.addBody
  split
  · refine ⟨h.name, ⟨fun v hv => ?_, h.type.fields⟩⟩
    rcases List.mem_append.mp hv with hv | hv
    · exact h.type.values v hv
    · exact isPlain_of_mem_values hv
  · exact ⟨h.name, ⟨h.type.values, hfields⟩⟩
  · exact ⟨h.name, ⟨h.type.values, hfields⟩⟩
  · exact h

theorem WellNamed.addLine {u : Unclosed} (h : u.WellNamed) (line : List Char) :
    (u.addLine line).WellNamed :=
  WellNamed.addBody (u := { u with
    depth := u.depth + braceBalance line
    entered := u.entered || line.contains '\x7b' }) h _

theorem wellNamed_ofHeader {scope : String} {h : Header} (hscope : scope = "" ∨ IsTypeName scope)
    (hname : IsTypeName h.name) (line : List Char) : (ofHeader scope h line).WellNamed := by
  refine WellNamed.addBody ?_ _
  exact ⟨isTypeName_qualifiedName hscope hname, ⟨nofun, nofun⟩⟩

end Unclosed

namespace Scan

/-- **The invariant of a scan**: everything that was taken down is well named. -/
structure WellNamed (s : Scan) : Prop where
  scope : s.scope = "" ∨ IsTypeName s.scope
  found : ∀ e ∈ s.found, Declares e
  unclosed : ∀ u, s.unclosed = some u → u.WellNamed

theorem WellNamed.settle {s : Scan} (h : s.WellNamed) {u : Unclosed} (hu : u.WellNamed) :
    (s.settle u).WellNamed := by
  unfold Scan.settle
  -- What is finished joins the definitions that were found, and the rest stays open.
  split
  · refine ⟨h.scope, fun e he => ?_, fun u hu => absurd hu (Option.some_ne_none u).symm⟩
    rcases List.mem_append.mp he with he | he
    · exact h.found e he
    · obtain rfl := List.mem_singleton.mp he
      exact hu
  · refine ⟨h.scope, h.found, ?_⟩
    rintro _ ⟨⟩
    exact hu

/-- **One line keeps the invariant.** -/
theorem WellNamed.addLine {s : Scan} (h : s.WellNamed) (line : List Char) :
    (s.addLine line).WellNamed := by
  unfold Scan.addLine
  split
  · next u hu => exact h.settle ((h.unclosed u hu).addLine line)
  · split
    · next scope hscope => exact ⟨.inr (isTypeName_of_namespaceOf? hscope), h.found, h.unclosed⟩
    · split
      · next header hheader =>
        exact h.settle (Unclosed.wellNamed_ofHeader h.scope (isTypeName_of_headerOf? hheader) line)
      · exact h

/-- **All lines keep the invariant.** -/
theorem WellNamed.addLines {s : Scan} (h : s.WellNamed) (lines : List String) :
    (lines.foldl (fun s l => s.addLine (withoutComment l.toList)) s).WellNamed := by
  induction lines generalizing s with
  | nil => exact h
  | cons line lines ih => exact ih (h.addLine _)

theorem WellNamed.definitions {s : Scan} (h : s.WellNamed) : ∀ e ∈ s.definitions, Declares e := by
  intro e he
  rcases List.mem_append.mp he with he | he
  · exact h.found e he
  · obtain ⟨u, hu, rfl⟩ := Option.map_eq_some_iff.mp (Option.mem_toList.mp he)
    exact h.unclosed u hu

end Scan

/-- **The definitions in a text are well named.** -/
theorem declares_of_mem_definitionsIn {text : String} {e : String × TypeDef}
    (h : e ∈ definitionsIn text) : Declares e := by
  have hstart : ({} : Scan).WellNamed := by
    refine ⟨.inl rfl, fun e he => ?_, fun u hu => ?_⟩
    · exact absurd he List.not_mem_nil
    · exact absurd hu (Option.some_ne_none u).symm
  exact (hstart.addLines (Text.lines text)).definitions e h

/-! ### Forming a schema -/

theorem wellNamed_empty : WellNamed Keyed.empty := nofun

theorem WellNamed.define {types types' : Schema} (h : types.WellNamed) {e : String × TypeDef}
    (he : Declares e) (hdefine : types.define e.1 e.2 = .ok types') : types'.WellNamed := by
  unfold Schema.define at hdefine
  split at hdefine
  · cases hdefine
  · obtain rfl := Except.ok.inj hdefine
    intro e' he'
    rcases mem_insertEntry he' with rfl | he'
    · exact he
    · exact h e' he'

theorem WellNamed.defineAll {types types' : Schema} (h : types.WellNamed)
    {defs : List (String × TypeDef)} (hdefs : ∀ e ∈ defs, Declares e)
    (hdefine : types.defineAll defs = .ok types') : types'.WellNamed := by
  unfold Schema.defineAll at hdefine
  induction defs generalizing types with
  | nil =>
    obtain rfl := Except.ok.inj hdefine
    exact h
  | cons e defs ih =>
    rw [List.foldlM_cons, bind_eq_ok_iff] at hdefine
    obtain ⟨next, hnext, hdefine⟩ := hdefine
    rw [List.forall_mem_cons] at hdefs
    exact ih (h.define hdefs.1 hnext) hdefs.2 hdefine

/-- **Completing a name** either leaves it or makes an unknown one known. -/
theorem qualifyName_cases (known : List String) (scope name : String) :
    qualifyName known scope name = name ∨
      name ∉ known ∧ scope ++ "." ++ name ∈ known ∧
        qualifyName known scope name = scope ++ "." ++ name := by
  unfold qualifyName
  split
  · exact .inl rfl
  · next hopen =>
    rw [Bool.or_eq_true, not_or, List.contains_iff_mem] at hopen
    dsimp only
    split
    · next hknown => exact .inr ⟨hopen.2, List.contains_iff_mem.mp hknown, rfl⟩
    · exact .inl rfl

/-- **Completing references keeps the schema well named.** -/
theorem WellNamed.qualify {types : Schema} (h : types.WellNamed) : types.qualify.WellNamed := by
  intro e he
  obtain ⟨⟨n, d⟩, hmem, rfl⟩ := List.mem_map.mp he
  obtain ⟨hname, htype⟩ := h _ hmem
  refine ⟨hname, ⟨htype.values, fun f hf => ?_⟩⟩
  obtain ⟨g, hg, rfl⟩ := List.mem_map.mp hf
  obtain ⟨hplain, href⟩ := htype.fields g hg
  refine ⟨hplain, fun r hr => ?_⟩
  cases ht : g.type with
  | primitive _ | string | vector _ => simp [ht, qualifyType] at hr
  | named m =>
    obtain rfl : qualifyName types.names d.scope m = r := by simpa [ht, qualifyType] using hr
    -- either the reference stays as it was written, or it becomes the name of a definition
    rcases qualifyName_cases types.names d.scope m with heq | ⟨-, hknown, heq⟩
    · rw [heq]
      exact href m ht
    · obtain ⟨e', he', hn⟩ := List.mem_map.mp hknown
      rw [heq, ← hn]
      exact (h e' he').name.isDotted

theorem wellNamed_of_parse {text : String} {types : Schema} (h : parse text = .ok types) :
    types.WellNamed := by
  obtain ⟨defined, hdefine, rfl⟩ := map_eq_ok_iff.mp h
  exact (wellNamed_empty.defineAll (fun e he => declares_of_mem_definitionsIn he) hdefine).qualify

theorem WellNamed.addFile {fs : FileSystem} {dirs : List String} {types types' : Schema}
    {path : String} (h : types.WellNamed) (hadd : addFile fs dirs types path = .ok types') :
    types'.WellNamed := by
  obtain ⟨found, -, hadd⟩ := bind_eq_ok_iff.mp hadd
  obtain ⟨text, -, hadd⟩ := bind_eq_ok_iff.mp hadd
  exact h.defineAll (fun e he => declares_of_mem_definitionsIn he) (mapError_eq_ok_iff.mp hadd)

theorem WellNamed.addFiles {fs : FileSystem} {dirs paths : List String} {types types' : Schema}
    (h : types.WellNamed) (hadd : paths.foldlM (Schema.addFile fs dirs) types = .ok types') :
    types'.WellNamed := by
  induction paths generalizing types with
  | nil =>
    obtain rfl := Except.ok.inj hadd
    exact h
  | cons path paths ih =>
    rw [List.foldlM_cons, bind_eq_ok_iff] at hadd
    obtain ⟨next, hnext, hadd⟩ := hadd
    exact ih (h.addFile hnext) hadd

theorem wellNamed_of_ofFiles {fs : FileSystem} {dirs paths : List String} {types : Schema}
    (h : ofFiles fs dirs paths = .ok types) : types.WellNamed := by
  obtain ⟨all, hall, h⟩ := bind_eq_ok_iff.mp h
  obtain rfl := pure_eq_ok_iff.mp h
  exact (wellNamed_empty.addFiles hall).qualify

/-- **A schema that was read**, from one text or from files. -/
inductive IsRead (types : Schema) : Prop where
  | text {text : String} (parsed : parse text = .ok types)
  | files {fs : FileSystem} {dirs paths : List String} (parsed : ofFiles fs dirs paths = .ok types)

/-- **A schema that was read is well named.** -/
theorem IsRead.wellNamed {types : Schema} (h : types.IsRead) : types.WellNamed := by
  cases h with
  | text parsed => exact wellNamed_of_parse parsed
  | files parsed => exact wellNamed_of_ofFiles parsed

end Schema

end Bindery
