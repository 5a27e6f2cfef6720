import Bindery.Emit.Go.Wasm
import Bindery.Proofs.Text

/-!
# What a Go file exports and imports

A comment at the outermost level of the file that begins with `//go:wasmexport` exports the
function below it, and one that begins with `//go:wasmimport env` imports it from the host.
Everything else at the outermost level begins in another way, whatever the names are, so
the directives can be read off the lines:

* `exports_eq` — the file exports the allocator and then its functions, in order;
* `imports_eq` — it imports the declarations of the platform services, in order;
* `exports_of_mem` — each exported function is declared right below its directive.
-/

namespace Bindery.Go

/-! ### Directives -/

/-- The directive that exports the function below it. -/
def exportDirective : String := "//go:wasmexport "

/-- The directive that imports the function below it from the host. -/
def importDirective : String := "//go:wasmimport env "

/-- **What the directives of a kind name**, in order. A directive is a comment at the
outermost level. -/
def directives (d : String) (ls : List Line) : List String :=
  ls.filterMap fun l => if l.depth = 0 then Text.dropPrefix? d l.text else none

/-- What both directives begin with. -/
def directiveMark : List Char := ['/', '/', 'g', 'o', ':', 'w', 'a', 's', 'm']

/-- The text does not begin like a directive. -/
def Bare (s : String) : Prop := ¬ directiveMark <+: s.toList

/-- The text does not begin like a directive, however it goes on. -/
def Unlike (s : String) : Prop := ∀ rest, Bare (s ++ rest)

variable {s t : String}

theorem bare_empty : Bare "" := by
  rw [Bare, String.toList_empty]
  decide

theorem Unlike.bare (h : Unlike s) : Bare s := by
  have hempty := h ""
  rwa [String.append_empty] at hempty

theorem Unlike.append (h : Unlike s) (t : String) : Unlike (s ++ t) := by
  intro rest
  rw [String.append_assoc]
  exact h (t ++ rest)

/-- Whether two texts differ at some place that both have. -/
def clashes : List Char → List Char → Bool
  | a :: as, b :: bs => a != b || clashes as bs
  | _, _ => false

/-- A text does not begin with another one if it clashes with it, however it goes on. -/
theorem not_prefix_of_clashes {as bs : List Char} (h : clashes as bs = true) (rest : List Char) :
    ¬ bs <+: as ++ rest := by
  induction as generalizing bs with
  | nil => cases h
  | cons a as ih =>
    cases bs with
    | nil => cases h
    | cons b bs =>
      rw [clashes, Bool.or_eq_true, bne_iff_ne] at h
      rw [List.cons_append, List.cons_prefix_cons]
      rintro ⟨rfl, hrest⟩
      exact ih (h.resolve_left fun hne => hne rfl) hrest

/-- **A fixed text is unlike a directive if its characters clash.** -/
theorem unlike_ofList (cs : List Char) (h : clashes cs directiveMark = true) :
    Unlike (String.ofList cs) := by
  intro rest
  rw [Bare, String.toList_append, String.toList_ofList]
  exact not_prefix_of_clashes h rest.toList

section Lines

variable {as bs ls : List Line} {d : String}

@[simp] theorem directives_append : directives d (as ++ bs) = directives d as ++ directives d bs :=
  List.filterMap_append

@[simp] theorem directives_flatMap {α : Type} {f : α → List Line} {xs : List α} :
    directives d (xs.flatMap f) = xs.flatMap fun x => directives d (f x) :=
  List.filterMap_flatMap

/-- The lines at the outermost level do not begin like a directive. -/
def Undirected (ls : List Line) : Prop := ∀ l ∈ ls, l.depth = 0 → Bare l.text

theorem directives_eq_nil (h : Undirected ls) (hd : directiveMark <+: d.toList) :
    directives d ls = [] := by
  rw [directives, List.filterMap_eq_nil_iff]
  intro l hl
  split
  · next hdepth =>
    rw [Option.eq_none_iff_forall_not_mem]
    intro rest hrest
    have htext := Text.dropPrefix?_eq_some_iff.mp hrest
    refine h l hl hdepth (hd.trans ?_)
    rw [htext, String.toList_append]
    exact List.prefix_append _ _
  · rfl

theorem undirected_append : Undirected (as ++ bs) ↔ Undirected as ∧ Undirected bs :=
  List.forall_mem_append

theorem undirected_singleton {text : String} : Undirected [{ text := text }] ↔ Bare text := by
  simp [Undirected]

theorem undirected_lines {texts : List String} :
    Undirected (Code.lines texts) ↔ ∀ t ∈ texts, Bare t := by
  simp [Undirected, Code.lines]

theorem undirected_blank : Undirected [Line.blank] := undirected_singleton.mpr bare_empty

theorem undirected_comment (text : String) : Undirected [Code.comment text] :=
  undirected_singleton.mpr ((unlike_ofList ['/', '/', ' '] rfl).append text).bare

theorem undirected_indent : Undirected (Code.indent ls) := by
  simp [Undirected, Code.indent]

theorem undirected_enclosed {header close : String} (hheader : Bare header) (hclose : Bare close) :
    Undirected (Code.enclosed header close ls) := by
  rw [Code.enclosed, ← List.singleton_append, List.append_assoc, undirected_append,
    undirected_append]
  exact ⟨undirected_singleton.mpr hheader, undirected_indent, undirected_singleton.mpr hclose⟩

theorem undirected_block {header : String} (h : Unlike header) :
    Undirected (Code.block header ls) :=
  undirected_enclosed (h.append _).bare (unlike_ofList _ rfl).bare

end Lines

/-! ### The parts of the file -/

section Parts

variable {d : String} (hd : directiveMark <+: d.toList)

include hd

theorem directives_importLines : directives d importLines = [] := by
  refine directives_eq_nil ?_ hd
  rw [importLines, undirected_append]
  exact ⟨undirected_enclosed (unlike_ofList _ rfl).bare (unlike_ofList _ rfl).bare,
    undirected_blank⟩

theorem directives_handleHelpers : directives d handleHelpers = [] := by
  refine directives_eq_nil ?_ hd
  simp only [handleHelpers, undirected_append]
  with_reducible repeat' first
    | apply And.intro | exact undirected_blank
    | exact undirected_block (unlike_ofList _ rfl)
    | exact undirected_enclosed (unlike_ofList _ rfl).bare (unlike_ofList _ rfl).bare

/-- The helpers export the allocator and nothing else. -/
theorem directives_wasmHelpers :
    directives d wasmHelpers =
      directives d (Code.lines ["var _wasmAllocs sync.Map", "", "//go:wasmexport malloc"])
        ++ directives d (Code.lines ["", "//go:wasmexport free"]) := by
  -- Of the helpers only two functions stand behind a directive, and the others add nothing.
  have hblank : directives d [Line.blank] = [] := directives_eq_nil undirected_blank hd
  have hcomment (text : String) : directives d [Code.comment text] = [] :=
    directives_eq_nil (undirected_comment text) hd
  have hcomments (a b : String) : directives d [Code.comment a, Code.comment b] = [] := by
    rw [← List.singleton_append, directives_append, hcomment, hcomment]
    rfl
  have hblock (header : String) (body : List Line) (h : Unlike header) :
      directives d (Code.block header body) = [] :=
    directives_eq_nil (undirected_block h) hd
  have hvar (body : List Line) : directives d (Code.enclosed "var (" ")" body) = [] :=
    directives_eq_nil
      (undirected_enclosed (unlike_ofList _ rfl).bare (unlike_ofList _ rfl).bare) hd
  delta wasmHelpers
  simp (disch := exact unlike_ofList _ rfl) only [directives_append, hblank, hcomment, hcomments,
    hblock, hvar, directives_handleHelpers hd, List.append_nil, List.nil_append]

theorem directives_codec (c : WasmCodec) : directives d c.lines = [] := by
  refine directives_eq_nil ?_ hd
  simp only [WasmCodec.lines, undirected_append]
  refine ⟨⟨⟨undirected_block ?_, undirected_blank⟩, undirected_block ?_⟩, undirected_blank⟩
  · exact (((unlike_ofList _ rfl).append _).append _).append _
  · exact (((((unlike_ofList _ rfl).append _).append _).append _).append _)

/-- The parts of the file that go with a directive: the allocator, the platform services and
the exported functions. -/
theorem directives_lines (f : WasmFile) :
    directives d f.lines = directives d wasmHelpers
      ++ f.imports.flatMap (fun i => directives d i.lines)
      ++ f.interfaces.flatMap fun p => p.2.flatMap fun e => directives d e.lines := by
  -- Every other part of the file is without directives.
  have hheader : directives d (Code.lines ["//go:build wasip1", "", "package main", ""]) = [] := by
    refine directives_eq_nil (undirected_lines.mpr ?_) hd
    simp only [List.forall_mem_cons]
    exact ⟨(unlike_ofList _ rfl).bare, bare_empty, (unlike_ofList _ rfl).bare, bare_empty,
      List.forall_mem_nil _⟩
  have hservices : directives d
      [Code.comment "Platform services provided by the host.", Line.blank] = [] := by
    refine directives_eq_nil ?_ hd
    exact undirected_append.mpr ⟨undirected_comment _, undirected_blank⟩
  have hblank : directives d [Line.blank] = [] := directives_eq_nil undirected_blank hd
  have htitle (i : Interface) : directives d (Code.lines ["/* " ++ i.name ++ " */", ""]) = [] := by
    refine directives_eq_nil (undirected_lines.mpr ?_) hd
    rw [List.forall_mem_cons, List.forall_mem_singleton]
    exact ⟨(((unlike_ofList _ rfl).append _).append _).bare, bare_empty⟩
  have hcodecs : f.codecs.flatMap (fun c => directives d c.lines) = [] := by
    simp only [directives_codec hd, List.flatMap_eq_nil_iff, implies_true]
  simp only [WasmFile.lines, directives_append, directives_flatMap, hheader, hservices, hblank,
    htitle, hcodecs, directives_importLines hd, List.append_nil, List.nil_append]

end Parts

/-! ### The directives of the file -/

theorem mark_prefix_exportDirective : directiveMark <+: exportDirective.toList := by decide

theorem mark_prefix_importDirective : directiveMark <+: importDirective.toList := by decide

/-- A directive names what stands behind it. -/
theorem directives_own (d name : String) : directives d (Code.lines [d ++ name]) = [name] := by
  have hname : Text.dropPrefix? d (d ++ name) = some name := Text.dropPrefix?_eq_some_iff.mpr rfl
  simp [directives, Code.lines, hname]

/-- A directive of another kind is none of this kind. -/
theorem directives_other {d d' : String} (h : clashes d'.toList d.toList = true) (name : String) :
    directives d (Code.lines [d' ++ name]) = [] := by
  have hname : Text.dropPrefix? d (d' ++ name) = none := by
    rw [Option.eq_none_iff_forall_not_mem]
    intro rest hrest
    refine not_prefix_of_clashes h name.toList ⟨rest.toList, ?_⟩
    rw [← String.toList_append, ← String.toList_append, ← Text.dropPrefix?_eq_some_iff.mp hrest]
  simp [directives, Code.lines, hname]

/-- An exported function has one directive. -/
theorem directives_wasmExport {d : String} (hd : directiveMark <+: d.toList) (e : WasmExport) :
    directives d e.lines = directives d (Code.lines [exportDirective ++ e.symbol]) := by
  have hblank : directives d [Line.blank] = [] := directives_eq_nil undirected_blank hd
  have hfunction {rest : String} {body : List Line} (h : Unlike rest) :
      directives d (Code.block rest body) = [] :=
    directives_eq_nil (undirected_block h) hd
  rw [WasmExport.lines, directives_append, directives_append, hblank, hfunction,
    List.append_nil, List.append_nil]
  · rfl
  · exact ((((((unlike_ofList _ rfl).append _).append _).append _).append _).append _)

/-- A platform service has one directive. -/
theorem directives_wasmImport {d : String} (hd : directiveMark <+: d.toList) (i : WasmImport) :
    directives d i.lines = directives d (Code.lines [importDirective ++ i.symbol]) := by
  have hfunction : Unlike ("func " ++ i.name ++ "("
      ++ Text.commaSep (i.params.map fun p => p.1 ++ " " ++ p.2) ++ ")" ++ i.answer) :=
    (((((unlike_ofList _ rfl).append _).append _).append _).append _).append _
  have hdeclaration := directives_eq_nil
    (undirected_lines.mpr (List.forall_mem_singleton.mpr hfunction.bare)) hd
  change directives d (Code.lines [importDirective ++ i.symbol] ++ Code.lines [_]) = _
  rw [directives_append, hdeclaration, List.append_nil]

/-- **The file exports the allocator and then its functions**, in order. -/
theorem exports_eq (f : WasmFile) :
    directives exportDirective f.lines =
      "malloc" :: "free" :: f.interfaces.flatMap fun p => p.2.map (·.symbol) := by
  have hd := mark_prefix_exportDirective
  have hclash : clashes importDirective.toList exportDirective.toList = true := by decide
  have hallocator : directives exportDirective wasmHelpers = ["malloc", "free"] := by
    rw [directives_wasmHelpers hd]
    decide +kernel
  have hservices : f.imports.flatMap (fun i => directives exportDirective i.lines) = [] := by
    simp only [directives_wasmImport hd, directives_other hclash, List.flatMap_eq_nil_iff,
      implies_true]
  rw [directives_lines hd, hallocator, hservices]
  simp only [directives_wasmExport hd, directives_own, List.append_nil, List.cons_append,
    List.nil_append, List.map_eq_flatMap]

/-- **The file imports the platform services**, in order. -/
theorem imports_eq (f : WasmFile) :
    directives importDirective f.lines = f.imports.map (·.symbol) := by
  have hd := mark_prefix_importDirective
  -- Exports are marked by a directive that is not this one, nor the beginning of it.
  have hclash : clashes exportDirective.toList importDirective.toList = true := by decide
  have hallocator : directives importDirective wasmHelpers = [] := by
    rw [directives_wasmHelpers hd]
    decide +kernel
  have hfunctions : f.interfaces.flatMap
      (fun p => p.2.flatMap fun e => directives importDirective e.lines) = [] := by
    simp only [directives_wasmExport hd, directives_other hclash, List.flatMap_eq_nil_iff,
      implies_true]
  rw [directives_lines hd, hallocator, hfunctions]
  simp only [directives_wasmImport hd, directives_own, List.append_nil, List.nil_append,
    List.map_eq_flatMap]

/-! ### Declarations below their directives -/

/-- **The lines export a function**: its directive, and its declaration right below. -/
def Exports (ls : List Line) (symbol : String) : Prop :=
  ∃ rest, [{ text := exportDirective ++ symbol },
    { text := "func " ++ symbol ++ "(" ++ rest }] <:+: ls

/-- What one member gives is a part of what all give. -/
theorem infix_flatMap {α β : Type} {f : α → List β} {xs : List α} {x : α} (hx : x ∈ xs) :
    f x <:+: xs.flatMap f := by
  obtain ⟨front, back, rfl⟩ := List.append_of_mem hx
  refine ⟨front.flatMap f, back.flatMap f, ?_⟩
  rw [List.flatMap_append, List.flatMap_cons, List.append_assoc]

/-- **Each exported function is declared right below its directive.** -/
theorem exports_of_mem {f : WasmFile} {p : Interface × List WasmExport} (hp : p ∈ f.interfaces)
    {e : WasmExport} (he : e ∈ p.2) : Exports f.lines e.symbol := by
  refine ⟨Text.commaSep (e.params.map WasmParam.text) ++ ")" ++ e.answer.text ++ " \x7b", ?_⟩
  -- The directive and the head of the function are the first two lines of an export.
  have hfunction : [{ text := exportDirective ++ e.symbol }, { text := "func " ++ e.symbol ++ "("
      ++ (Text.commaSep (e.params.map WasmParam.text) ++ ")" ++ e.answer.text ++ " \x7b") }]
      <+: e.lines := by
    refine ⟨Code.indent e.body ++ [{ text := "\x7d" }] ++ [Line.blank], ?_⟩
    simp only [← String.append_assoc]
    rfl
  have hinterfaces : f.interfaces.flatMap (fun q =>
      Code.lines ["/* " ++ q.1.name ++ " */", ""] ++ q.2.flatMap WasmExport.lines) <:+ f.lines :=
    List.suffix_append _ _
  have hinterface : Code.lines ["/* " ++ p.1.name ++ " */", ""] ++ p.2.flatMap WasmExport.lines
      <:+: f.lines :=
    (infix_flatMap hp).trans hinterfaces.isInfix
  exact ((hfunction.isInfix.trans (infix_flatMap he)).trans (List.suffix_append _ _).isInfix).trans
    hinterface

/-- What is exported is named by a directive. -/
theorem mem_directives_of_exports {ls : List Line} {symbol : String} (h : Exports ls symbol) :
    symbol ∈ directives exportDirective ls := by
  obtain ⟨rest, h⟩ := h
  rw [directives, List.mem_filterMap]
  refine ⟨{ text := exportDirective ++ symbol }, h.subset List.mem_cons_self, ?_⟩
  exact Text.dropPrefix?_eq_some_iff.mpr rfl

end Bindery.Go
