import Bindery.Proofs.Lowering
import Bindery.Proofs.Prototypes.Wrapping
import Bindery.Proofs.Shims

/-!
# An exported function in three files

The three definitions of an exported function are files: a prototype in the C header, a function
under an `//export` line in the cgo shim, and a function under `#[no_mangle]` in the file of the Rust
exports. What a linker brings together is what stands there, so the lowered functions are followed
into the files.

* `SameText`, `SameTexts`, `SameAnswerText` — the spellings of one parameter, of all parameters and
  of the answer in the three languages;
* `PrintsFunction` — these spellings stand in the three files, behind the same symbol;
* `Rust.Export.writes` — the head of a Rust function is written as it is, and its parameters on one
  line or each on a line of its own.

`shims_agree` puts them together.
-/

namespace Bindery

open Abi

/-! ### Spellings -/

/-- **A type that crosses as a whole**, as the header, the shim and the Rust exports spell it. -/
inductive SameValueText : String → String → String → Prop
  | handle (name : String) : SameValueText (Naming.handleToSnake name ++ "_handle")
      ("C." ++ (Naming.handleToSnake name ++ "_handle")) "*mut c_void"
  | primitive (p : Primitive) : SameValueText p.row.c ("C." ++ p.row.c) p.row.rust
  | schema (name ident : String) (spelled : Rust.typeName name = .ok ident) :
    SameValueText (Naming.cTypeName name) ("C." ++ Naming.cTypeName name) ident

/-- **The type of a parameter** in three spellings. -/
inductive SameText : String → String → String → Prop
  | text : SameText "const char*" "*C.char" "*const c_char"
  | elements (p : Primitive) :
    SameText ("const " ++ p.row.c ++ "*") ("*C." ++ p.row.c) ("*const " ++ p.row.rust)
  | elementsMut (p : Primitive) :
    SameText (p.row.c ++ "*") ("*C." ++ p.row.c) ("*mut " ++ p.row.rust)
  | length : SameText "uint32_t" "C.uint32_t" "u32"
  | value {c go rust : String} (same : SameValueText c go rust) : SameText c go rust
  | pointer (name ident : String) (spelled : Rust.typeName name = .ok ident) :
    SameText ("const " ++ Naming.cTypeName name ++ "*") ("*C." ++ Naming.cTypeName name)
      ("*const " ++ ident)
  | pointerMut (name ident : String) (spelled : Rust.typeName name = .ok ident) :
    SameText (Naming.cTypeName name ++ "*") ("*C." ++ Naming.cTypeName name) ("*mut " ++ ident)

/-- A parameter in print: its name and its type in each of the three. -/
structure Spelling where
  c : String × String
  go : String × String
  rust : String × String

/-- **The parameters in print**, and the pointer for the result at the end if the operation `m`
passes its result through one. -/
inductive SameTexts (m : Method) : List Spelling → Prop
  | nil (absent : ¬ PassesResult m) : SameTexts m []
  | result {p : Spelling} {c go rust : String} (present : PassesResult m)
      (same : SameValueText c go rust) (pointers : p.c = ("out_result", c ++ "*") ∧
        p.go = ("out_result", "*" ++ go) ∧ p.rust = ("out_result", "*mut " ++ rust)) :
    SameTexts m [p]
  | cons {p : Spelling} {ps : List Spelling} (same : SameText p.c.2 p.go.2 p.rust.2)
      (rest : SameTexts m ps) : SameTexts m (p :: ps)

/-- **What the three write for an answer**: C in front of the symbol, the others behind the
parameters. -/
inductive SameAnswerText : String → String → String → Prop
  | void : SameAnswerText "void" "" ""
  | status : SameAnswerText "int32_t" " C.int32_t" " -> i32"
  | value {c go rust : String} (same : SameValueText c go rust) :
    SameAnswerText c (" " ++ go) (" -> " ++ rust)

/-- Each row of the table spells the cgo type like the C type. -/
theorem cgo_row (p : Primitive) : p.row.cgo = "C." ++ p.row.c := by
  cases p <;> rfl

theorem SameValue.exists_text {v : ValueType} {t : Rust.Ty} (h : SameValue v t) :
    ∃ rust, t.Spelled rust ∧ SameValueText v.c (Go.cgoValue v) rust := by
  cases h with
  | handle name => exact ⟨_, .toMut .cVoid, .handle name⟩
  | primitive p => exact ⟨_, .primitive p, .primitive p⟩
  | schema name ident spelled => exact ⟨_, .schema ident, .schema name ident spelled⟩

theorem SameType.exists_text {a : ArgType} {g : Go.CgoType} {r : Rust.Ty} (h : SameType a g r) :
    ∃ rust, r.Spelled rust ∧ SameText a.c g.text rust := by
  -- Each form of a type has its spelling in the three languages.
  cases h with
  | text => exact ⟨_, .toConst .cChar, .text⟩
  | elements p writable =>
    have hcgo : (Go.CgoType.elements p).text = "*C." ++ p.row.c := by
      rw [Go.CgoType.text, cgo_row, ← String.append_assoc]
      rfl
    rw [hcgo]
    cases writable with
    | false => exact ⟨_, .toConst (.primitive p), .elements p⟩
    | true => exact ⟨_, .toMut (.primitive p), .elementsMut p⟩
  | length => exact ⟨_, .primitive .uint32, .length⟩
  | handle name => exact ⟨_, .toMut .cVoid, .value (.handle name)⟩
  | primitive p =>
    rw [Go.CgoType.text, cgo_row]
    exact ⟨_, .primitive p, .value (.primitive p)⟩
  | schema name ident spelled => exact ⟨_, .schema ident, .value (.schema name ident spelled)⟩
  | pointer name ident writable spelled =>
    cases writable with
    | false => exact ⟨_, .toConst (.schema ident), .pointer name ident spelled⟩
    | true => exact ⟨_, .toMut (.schema ident), .pointerMut name ident spelled⟩

/-- **The parameters are the same in print.** -/
theorem SameParams.exists_texts {m : Method} {cs : List Param} {gs : List Go.CgoParam}
    {rs : List Rust.Binding} (h : SameParams m cs gs rs) :
    ∃ ps, SameTexts m ps ∧ cs.map (fun p => (p.name, p.type.c)) = ps.map (·.c) ∧
      gs.map (fun p => (p.name, p.type.text)) = ps.map (·.go) ∧
      List.Forall₂ Rust.Binding.Prints rs (ps.map (·.rust)) := by
  -- The result is the last parameter, and the ones before it are added in front.
  induction h with
  | nil absent => exact ⟨[], .nil absent, rfl, rfl, .nil⟩
  | @result v t present same =>
    obtain ⟨rust, hspelled, hsame⟩ := same.exists_text
    exact ⟨[⟨("out_result", v.c ++ "*"), ("out_result", "*" ++ Go.cgoValue v),
      ("out_result", "*mut " ++ rust)⟩], .result present hsame ⟨rfl, rfl, rfl⟩, rfl, rfl,
      .cons ⟨rfl, .toMut hspelled⟩ .nil⟩
  | @cons p g r _ _ _ same _ ih =>
    obtain ⟨rust, hspelled, hsame⟩ := same.exists_text
    obtain ⟨ps, hps, hc, hgo, hrust⟩ := ih
    refine ⟨⟨(p.name, p.type.c), (g.name, g.type.text), (r.name, rust)⟩ :: ps, .cons hsame hps, ?_, ?_,
      .cons ⟨rfl, hspelled⟩ hrust⟩
    · rw [List.map_cons, hc, List.map_cons]
    · rw [List.map_cons, hgo, List.map_cons]

/-- What Rust writes for an answer. -/
inductive Rust.AnswerPrints : Option Ty → String → Prop
  | none : AnswerPrints none ""
  | some {t : Ty} {s : String} (spelled : t.Spelled s) : AnswerPrints (some t) (" -> " ++ s)

theorem SameAnswer.exists_text {a a' : Answer} {t : Option Rust.Ty} (h : SameAnswer a a' t) :
    ∃ rust, Rust.AnswerPrints t rust ∧ SameAnswerText a.c (Go.CgoExport.answerText a') rust := by
  cases h with
  | void => exact ⟨_, .none, .void⟩
  | status => exact ⟨_, .some (.primitive .int32), .status⟩
  | value same =>
    obtain ⟨rust, hspelled, hsame⟩ := same.exists_text
    exact ⟨_, .some hspelled, .value hsame⟩

/-! ### The Rust exports -/

namespace Rust

open Doc

/-- **What Rust writes in front of the body of an exported function**, the parameters listed between
the parentheses. -/
def IsHead (symbol : String) (ps : List (String × String)) (answer text : String) : Prop :=
  ∃ list, Listed (ps.map fun p => p.1 ++ ": " ++ p.2) list ∧
    text = "pub unsafe extern \"C\" fn " ++ symbol ++ "(" ++ list ++ ")" ++ answer

/-- The pieces of a list of parameters. -/
theorem exists_parameterPieces {bindings : List Binding} {ps : List (String × String)}
    (h : List.Forall₂ Binding.Prints bindings ps) :
    ∃ pieces : List (List String), (∀ texts ∈ pieces, texts ≠ []) ∧
      bindings.map Binding.doc = pieces.map (·.map Doc.text) ∧
      pieces.map String.join = ps.map fun p => p.1 ++ ": " ++ p.2 := by
  induction h with
  | nil => exact ⟨[], List.forall_mem_nil _, rfl, rfl⟩
  | cons hprints _ ih =>
    obtain ⟨pieces, hpieces, hdocs, hjoins⟩ := ih
    obtain ⟨texts, htexts, hdoc, hjoin⟩ := hprints.exists_texts
    exact ⟨texts :: pieces, List.forall_mem_cons.mpr ⟨htexts, hpieces⟩,
      by rw [List.map_cons, List.map_cons, hdocs, hdoc],
      by rw [List.map_cons, List.map_cons, hjoins, hjoin]⟩

/-- An answer is written behind the parameters, and never broken. -/
theorem AnswerPrints.write_group {answer : Option Ty} {ra : String} (h : AnswerPrints answer ra)
    (depth offset : Int) (trailing : Nat) (written : String) (room : Int) :
    ∃ room', write .evenly depth trailing (.even offset (match answer with
      | .none => []
      | .some t => .text " -> " :: t.doc)) { written, room } =
        { written := written ++ ra, room := room' } := by
  -- A type that follows is written on the line of its parameters, wide or not.
  have htimes : Text.times 0 " " = "" := rfl
  cases h with
  | none =>
    refine ⟨room, ?_⟩
    rw [even, write, writeAll, writeAll, ite_self, String.append_empty]
  | @some t s spelled =>
    obtain ⟨texts, -, hdoc, rfl⟩ := spelled.exists_texts
    have hbody : Doc.text " -> " :: t.doc = (" -> " :: texts).map Doc.text := by
      rw [hdoc, List.map_cons]
    refine ⟨room - ((String.join (" -> " :: texts)).utf8ByteSize : Nat), ?_⟩
    dsimp only
    rw [hbody, even, write_group_texts _ _ _ _ _ (List.cons_ne_nil _ _), Page.put, htimes,
      String.append_empty, String.join_cons]

theorem Signature.exists_head {s : Signature} (hself : s.hasSelf = false)
    {ps : List (String × String)} (hps : List.Forall₂ Binding.Prints s.params ps) {ra : String}
    (hra : AnswerPrints s.answer ra) (written : String) :
    ∃ text room, IsHead s.name ps ra text ∧
      writeAll .evenly (0 + step) 2 (.text "pub unsafe extern \"C\" " :: s.doc) (atStart written) =
        { written := written ++ text, room } := by
  have htimes : Text.times 0 " " = "" := rfl
  obtain ⟨pieces, hpieces, hdocs, hjoins⟩ := exists_parameterPieces hps
  obtain ⟨list, room, hlisted, hwrites⟩ := exists_paramDoc
    (tail 2 [Doc.text ")", .even (-step) (match s.answer with
      | .none => []
      | .some t => .text " -> " :: t.doc)]) hpieces
    (written ++ "pub unsafe extern \"C\" " ++ ("fn " ++ s.name ++ "("))
    ((((atStart written).put "pub unsafe extern \"C\" ").put ("fn " ++ s.name ++ "(")).room - (0 : Nat))
  obtain ⟨room', hanswer⟩ := hra.write_group (0 + step) (-step) 2
    (written ++ "pub unsafe extern \"C\" " ++ ("fn " ++ s.name ++ "(") ++ list ++ ")")
    (room - (")".utf8ByteSize : Nat))
  -- The head is the keyword, the name and the parameters, which may be broken, and then the
  -- answer.
  refine ⟨_, room', ⟨list, hjoins ▸ hlisted, rfl⟩, ?_⟩
  have hparts : s.doc = .text ("fn " ++ s.name ++ "(") :: .joint ::
      (Signature.paramDoc (pieces.map (·.map .text)) ++ [.text ")", .even (-step) (match s.answer with
      | .none => []
      | .some t => .text " -> " :: t.doc)]) := by
    rw [Signature.doc, hself, ← hdocs]
    rfl
  have hjoint : ∀ trailing p, write .evenly (0 + step) trailing joint p = p.skip 0 :=
    fun _ _ => rfl
  have hkeyword : "pub unsafe extern \"C\" fn " = "pub unsafe extern \"C\" " ++ "fn " := rfl
  rw [hparts, writeAll_text, writeAll_text, writeAll, hjoint, writeAll_append]
  simp only [Page.skip, Page.put, atStart, htimes, String.append_empty] at hwrites ⊢
  rw [hwrites, writeAll_text, writeAll, writeAll]
  simp only [Page.put, htimes, String.append_empty] at hanswer ⊢
  refine hanswer.trans ?_
  simp only [hkeyword, String.append_assoc]


/-- The lines of an exported function up to the brace that opens its body, and the body. -/
def IsExport (symbol : String) (ps : List (String × String)) (answer text : String) : Prop :=
  ∃ head body, IsHead symbol ps answer head ∧
    text = "#[no_mangle]" ++ "\n" ++ head ++ " \x7b" ++ body

theorem Export.writes {e : Export} (hself : e.signature.hasSelf = false) {ps : List (String × String)}
    (hps : List.Forall₂ Binding.Prints e.signature.params ps) {ra : String}
    (hra : AnswerPrints e.signature.answer ra) :
    Writes e.doc (IsExport e.signature.name ps ra) := by
  have hpieces : (e.handovers.filterMap fun h => h.conversion.map Conversion.doc) ++ [e.finish] ≠ [] :=
    List.append_ne_nil_of_right_ne_nil _ (List.cons_ne_nil _ _)
  intro written trailing
  obtain ⟨text, ⟨_, ⟨head, body, hhead, rfl⟩, rfl⟩, hwrites⟩ :=
    writes_under (writes_braced_head hpieces (Signature.exists_head hself hps hra)) ["#[no_mangle]"]
      written trailing
  refine ⟨_, ⟨head, body, hhead, ?_⟩, hwrites⟩
  rw [List.map_singleton, String.join_cons, String.join_nil, String.append_empty]
  simp only [String.append_assoc]

/-- What a type that crosses as a whole is spelled as. -/
theorem exists_spelled_of_valueType {ty : String} {t : Ty} (h : valueType ty = .ok t) :
    ∃ s, t.Spelled s := by
  obtain ⟨form, -, h⟩ := bind_eq_ok_iff.mp h
  -- What can be a value is a handle, a scalar or a name, each with a spelling.
  cases form with
  | handle name =>
    obtain rfl := pure_eq_ok_iff.mp h
    exact ⟨_, .toMut .cVoid⟩
  | primitive p =>
    obtain rfl := pure_eq_ok_iff.mp h
    exact ⟨_, .primitive p⟩
  | qualified name =>
    obtain ⟨ident, -, h⟩ := bind_eq_ok_iff.mp h
    obtain rfl := pure_eq_ok_iff.mp h
    exact ⟨_, .schema ident⟩
  | string | buffer _ => cases h

/-- Every parameter that is passed is printed. -/
theorem exists_prints_of_passedParams {p : Parameter} {bs : List Binding}
    (h : passedParams p = .ok bs) : ∃ ps, List.Forall₂ Binding.Prints bs ps := by
  have hpointer : ∀ {t : Ty} {s : String} (isMut : Bool), t.Spelled s →
      ∃ s', (Ty.pointer isMut t).Spelled s' := by
    intro t s isMut hspelled
    cases isMut with
    | false => exact ⟨_, .toConst hspelled⟩
    | true => exact ⟨_, .toMut hspelled⟩
  obtain ⟨name, -, h⟩ := bind_eq_ok_iff.mp h
  obtain ⟨form, -, h⟩ := bind_eq_ok_iff.mp h
  cases form with
  | string =>
    obtain rfl := pure_eq_ok_iff.mp h
    exact ⟨[(_, _)], .cons ⟨rfl, .toConst .cChar⟩ .nil⟩
  | buffer element =>
    obtain ⟨length, -, h⟩ := bind_eq_ok_iff.mp h
    obtain rfl := pure_eq_ok_iff.mp h
    obtain ⟨s, hs⟩ := hpointer p.effectiveTransfer.isMut (.primitive element)
    exact ⟨[(_, _), (_, _)], .cons ⟨rfl, hs⟩ (.cons ⟨rfl, .primitive .uint32⟩ .nil)⟩
  | handle handle =>
    obtain rfl := pure_eq_ok_iff.mp h
    exact ⟨[(_, _)], .cons ⟨rfl, .toMut .cVoid⟩ .nil⟩
  | primitive q =>
    obtain rfl := pure_eq_ok_iff.mp h
    exact ⟨[(_, _)], .cons ⟨rfl, .primitive q⟩ .nil⟩
  | qualified q =>
    obtain ⟨ident, -, h⟩ := bind_eq_ok_iff.mp h
    -- one case for each transfer
    cases htransfer : p.effectiveTransfer with
    | value =>
      simp only [htransfer] at h
      obtain rfl := pure_eq_ok_iff.mp h
      exact ⟨[(_, _)], .cons ⟨rfl, .schema ident⟩ .nil⟩
    | ref =>
      simp only [htransfer] at h
      obtain rfl := pure_eq_ok_iff.mp h
      exact ⟨[(_, _)], .cons ⟨rfl, .toConst (.schema ident)⟩ .nil⟩
    | refMut =>
      simp only [htransfer] at h
      obtain rfl := pure_eq_ok_iff.mp h
      exact ⟨[(_, _)], .cons ⟨rfl, .toMut (.schema ident)⟩ .nil⟩

/-- Parameters are printed one after the other. -/
theorem exists_prints_of_forall₂ {ps : List Parameter} {rs : List (List Binding × Handover)}
    (h : List.Forall₂ (fun p r => passedParams p = .ok r.1) ps rs) :
    ∃ printed, List.Forall₂ Binding.Prints (rs.flatMap (·.1)) printed := by
  induction h with
  | nil => exact ⟨[], .nil⟩
  | cons hfirst _ ih =>
    obtain ⟨printed, hprinted⟩ := exists_prints_of_passedParams hfirst
    obtain ⟨printed', hprinted'⟩ := ih
    exact ⟨printed ++ printed', List.rel_append hprinted hprinted'⟩

/-- What is behind the parameters is printed, and the answer. -/
theorem exists_prints_of_ends {m : Method} {outs : List Binding} {answer : Option Ty}
    (h : Ends valueType Export.outParam none (some (.primitive .int32)) some m outs answer) :
    ∃ printed ra, List.Forall₂ Binding.Prints outs printed ∧ AnswerPrints answer ra := by
  -- by the four shapes of an operation
  unfold Ends at h
  cases herror : m.error <;> cases hreturns : m.returns <;> simp only [herror, hreturns] at h
  · obtain ⟨rfl, rfl⟩ := h
    exact ⟨[], _, .nil, .none⟩
  · obtain ⟨t, ht, rfl, rfl⟩ := h
    obtain ⟨s, hs⟩ := exists_spelled_of_valueType ht
    exact ⟨[], _, .nil, .some hs⟩
  · obtain ⟨rfl, rfl⟩ := h
    exact ⟨[], _, .nil, .some (.primitive .int32)⟩
  · obtain ⟨t, ht, rfl, rfl⟩ := h
    obtain ⟨s, hs⟩ := exists_spelled_of_valueType ht
    exact ⟨[(_, _)], _, .cons ⟨rfl, .toMut hs⟩ .nil, .some (.primitive .int32)⟩

/-- Every exported function is printed. -/
theorem Export.exists_prints {ctx : Context} {op : Operation} {e : Export}
    (h : Export.ofOperation ctx op = .ok e) :
    ∃ ps ra, List.Forall₂ Binding.Prints e.signature.params ps ∧
      AnswerPrints e.signature.answer ra := by
  obtain ⟨-, -, rs, outs, hpassed, hparams, hends⟩ := exists_of_rustExport h
  obtain ⟨printed, hprinted⟩ := exists_prints_of_forall₂ hpassed
  obtain ⟨printed', ra, hprinted', hra⟩ := exists_prints_of_ends hends
  exact ⟨printed ++ printed', ra, hparams ▸ List.rel_append hprinted hprinted', hra⟩

/-- **The file of the exports holds each function** under its attribute. -/
theorem exists_holds_export {ctx : Context} {es : List Export} (hes : exports ctx = .ok es)
    (modules : Modules) {op : Operation} (hop : op ∈ ctx.api.operations) {e : Export}
    (he : Export.ofOperation ctx op = .ok e) {ps : List (String × String)}
    (hps : List.Forall₂ Binding.Prints e.signature.params ps) {ra : String}
    (hra : AnswerPrints e.signature.answer ra) :
    ∃ text, IsExport e.signature.name ps ra text ∧
      Text.Holds (exportFile ctx modules es) (text ++ "\n") := by
  have hforall := mapM_eq_ok_iff.mp hes
  -- nothing is asked of the other functions but that they are written
  have hwrites : ∀ e' ∈ es, Writes e'.doc fun text => e' = e → IsExport e.signature.name ps ra text := by
    intro e' he'
    obtain ⟨op', -, hop'⟩ := exists_mem_of_forall₂ hforall.flip he'
    obtain ⟨-, hself, -⟩ := exists_of_rustExport hop'
    obtain ⟨ps', ra', hps', hra'⟩ := Export.exists_prints hop'
    by_cases hsame : e' = e
    · subst hsame
      exact fun written trailing => (Export.writes hself hps hra written trailing).imp
        fun text h => ⟨fun _ => h.1, h.2⟩
    · exact fun written trailing => (Export.writes hself hps' hra' written trailing).imp
        fun text h => ⟨fun habsurd => absurd habsurd hsame, h.2⟩
  obtain ⟨e', hmem, he'⟩ := exists_mem_of_forall₂ hforall hop
  obtain rfl := Except.ok.inj (he.symm.trans he')
  obtain ⟨written, hwritten, hfile⟩ := exists_sourceText (["#![allow(unused_imports, clippy::missing_safety_doc)]",
      "use std::ffi::\x7bc_char, c_void, CStr\x7d;"] ++ useTypes ctx modules
      ++ [useAll modules.traits, useAll modules.implementation]) hwrites
  obtain ⟨text, htext, hexport⟩ := exists_mem_of_forall₂ hwritten hmem
  refine ⟨text, hexport rfl, ?_⟩
  rw [exportFile, hfile]
  exact Text.holds_join (List.mem_map_of_mem (List.mem_append_right _ htext))

/-- The file of the exports is among the files of the skeleton. -/
theorem exists_exportFile {ctx : Context} {files : List Artifact} (h : emit ctx = .ok files) :
    ∃ modules es, exports ctx = .ok es ∧
      { path := ctx.apiName ++ "_ffi.rs"
        content := ctx.generatedBanner .slash ++ exportFile ctx modules es : Artifact } ∈ files := by
  obtain ⟨modules, -, h⟩ := bind_eq_ok_iff.mp h
  obtain ⟨ts, -, h⟩ := bind_eq_ok_iff.mp h
  obtain ⟨es, hes, h⟩ := bind_eq_ok_iff.mp h
  refine ⟨modules, es, hes, ?_⟩
  -- whether there is a file of types or not
  by_cases hempty : ctx.types.entries.isEmpty = true
  · simp only [if_pos hempty] at h
    obtain ⟨types, -, h⟩ := bind_eq_ok_iff.mp h
    obtain rfl := pure_eq_ok_iff.mp h
    exact List.mem_append_left _ (List.mem_append_left _ (List.mem_cons_of_mem _ List.mem_cons_self))
  · simp only [if_neg hempty] at h
    obtain ⟨ds, -, h⟩ := bind_eq_ok_iff.mp h
    obtain ⟨types, -, h⟩ := bind_eq_ok_iff.mp h
    obtain rfl := pure_eq_ok_iff.mp h
    exact List.mem_append_left _ (List.mem_append_left _ (List.mem_cons_of_mem _ List.mem_cons_self))

end Rust

/-! ### The three files -/

/-- **A function of the cgo shim in print**: the directive that exports it, its head, and its body
one level deeper. -/
def shimLines (symbol : String) (ps : List (String × String)) (answer : String)
    (body : List Line) : List Line :=
  [{ text := "//export " ++ symbol },
    { text := "func " ++ symbol ++ "(" ++ Text.commaSep (ps.map fun p => p.1 ++ " " ++ p.2) ++ ")"
        ++ answer ++ " \x7b" }]
    ++ Code.indent body ++ [{ text := "\x7d" }]

/-- A C function as text, from the spellings of its parameters. -/
def prototypeOf (symbol : String) (ps : List Spelling) (answer : String) : Prototype where
  answer
  symbol
  params := ps.map fun p => (p.c.2, p.c.1)

/-- **How the three definitions of a function are printed**: behind one symbol, the spellings of the
parameters in order, and those of the answer. -/
structure PrintsFunction (symbol : String) (c : Signature) (go : Go.CgoExport) (rust : Rust.Export)
    (ps : List Spelling) (ca ga ra : String) : Prop where
  prototype : ∀ lead terminator, c.lines lead terminator =
    (prototypeOf symbol ps ca).lines lead terminator
  shim : ∃ body, go.lines = shimLines symbol (ps.map (·.go)) ga body ++ [Line.blank]
  exported : Doc.Writes rust.doc (Rust.IsExport symbol (ps.map (·.rust)) ra)

/-- **Where a function stands**: in the header, in the cgo shim and in the file of the Rust exports,
each time one of them is emitted for a description with the operation. -/
structure StandsInFiles (ctx : Context) (op : Operation) (ps : List Spelling) (ca ga ra : String) :
    Prop where
  header : ∀ files, Header.emit ctx = .ok files →
    ∃ code, files = [ctx.generatedFile (ctx.apiName ++ ".h") Code.fourBlanks code] ∧
      (prototypeOf (op.symbol ctx.apiName) ps ca).lines (some (Naming.exportMacro ctx.apiName)) ";"
        <:+: code
  shim : ∀ files, Go.emit ctx = .ok files →
    ∃ code body, ctx.generatedFile (ctx.apiName ++ "_cgo.go") Code.tab code ∈ files ∧
      shimLines (op.symbol ctx.apiName) (ps.map (·.go)) ga body <:+: code
  exports : ∀ files, Rust.emit ctx = .ok files →
    ∃ code text, { path := ctx.apiName ++ "_ffi.rs"
                   content := ctx.generatedBanner .slash ++ code : Artifact } ∈ files ∧
      Rust.IsExport (op.symbol ctx.apiName) (ps.map (·.rust)) ra text ∧
      Text.Holds code (text ++ "\n")

/-- Three definitions of one function are printed alike. -/
theorem SameFunction.exists_prints {m : Method} {c : Signature} {go : Go.CgoExport} {rust : Rust.Export}
    (h : SameFunction m c go rust.signature) (hself : rust.signature.hasSelf = false) :
    ∃ ps ca ga ra, SameTexts m ps ∧ SameAnswerText ca ga ra ∧
      List.Forall₂ Rust.Binding.Prints rust.signature.params (ps.map (·.rust)) ∧
      Rust.AnswerPrints rust.signature.answer ra ∧ PrintsFunction c.symbol c go rust ps ca ga ra := by
  obtain ⟨ps, hps, hc, hgo, hrust⟩ := h.params.exists_texts
  obtain ⟨ra, hra, hanswer⟩ := h.answers.exists_text
  refine ⟨ps, c.answer.c, Go.CgoExport.answerText go.answer, ra, hps, hanswer, hrust, hra, ?_, ?_, ?_⟩
  · -- the types in front of the names
    intro lead terminator
    have hparams : c.params.map (fun p => (p.type.c, p.name)) = ps.map fun p => (p.c.2, p.c.1) := by
      have hswapped := congrArg (List.map Prod.swap) hc
      rw [List.map_map, List.map_map] at hswapped
      exact hswapped
    rw [← Signature.lines_prototype, Signature.prototype, hparams, prototypeOf]
  · refine ⟨go.body, ?_⟩
    have hparams : go.params.map (fun p => p.name ++ " " ++ p.type.text) =
        (ps.map (·.go)).map fun p => p.1 ++ " " ++ p.2 := by
      rw [← hgo, List.map_map]
      rfl
    rw [Go.CgoExport.lines, hparams, h.symbols.1]
    rfl
  · rw [← h.symbols.2]
    exact Rust.Export.writes hself hrust hra

/-- The shim holds the lines of each of its functions. -/
theorem Go.lines_isInfix_cgoFile {ctx : Context} {exports : List (Interface × List CgoExport)}
    (h : cgoExports ctx = .ok exports) {op : Operation} (hop : op ∈ ctx.api.operations)
    {go : CgoExport} (hgo : CgoExport.ofOperation ctx op = .ok go) :
    go.lines <:+: cgoFile ctx exports := by
  obtain ⟨i, hi, hop⟩ := List.mem_flatMap.mp hop
  obtain ⟨⟨i', es⟩, hmem, hes⟩ := exists_mem_of_forall₂ (mapM_eq_ok_iff.mp h) hi
  obtain ⟨es', hes', hpair⟩ := bind_eq_ok_iff.mp hes
  obtain ⟨rfl, rfl⟩ := Prod.mk.inj (pure_eq_ok_iff.mp hpair)
  obtain ⟨go', hmem', hgo'⟩ := exists_mem_of_forall₂ (mapM_eq_ok_iff.mp hes') hop
  obtain rfl := Except.ok.inj (hgo.symm.trans hgo')
  -- among the functions of its interface
  have hfunction : go.lines <:+: es'.flatMap CgoExport.lines := by
    rw [List.flatMap_def]
    exact List.infix_of_mem_flatten (List.mem_map_of_mem hmem')
  -- and these at the end of the file
  have hinterface : Code.lines ["/* " ++ i.name ++ " */", ""] ++ es'.flatMap CgoExport.lines <:+:
      exports.flatMap fun e =>
        Code.lines ["/* " ++ e.1.name ++ " */", ""] ++ e.2.flatMap CgoExport.lines := by
    rw [List.flatMap_def]
    exact List.infix_of_mem_flatten (List.mem_map.mpr ⟨_, hmem, rfl⟩)
  exact (hfunction.trans (List.suffix_append _ _).isInfix).trans
    (hinterface.trans (List.suffix_append _ _).isInfix)

/-- **The header, the cgo shim and the Rust exports define the same function** for every
operation for which the three exist: as they are lowered, as they are printed, and in the files that
are emitted. -/
theorem shims_agree {ctx : Context} {op : Operation} {c : Signature} {go : Go.CgoExport}
    {rust : Rust.Export} (header : Signature.ofOperation ctx.apiName op = .ok c)
    (shim : Go.CgoExport.ofOperation ctx op = .ok go)
    (exported : Rust.Export.ofOperation ctx op = .ok rust) :
    SameFunction op.method c go rust.signature ∧
      ∃ ps ca ga ra, SameTexts op.method ps ∧ SameAnswerText ca ga ra ∧
        PrintsFunction (op.symbol ctx.apiName) c go rust ps ca ga ra ∧
        (op ∈ ctx.api.operations → StandsInFiles ctx op ps ca ga ra) := by
  have hsame := sameFunction_of_lowered header shim exported
  obtain ⟨hsymbol, hself, -⟩ := exists_of_rustExport exported
  obtain ⟨ps, ca, ga, ra, hps, hanswer, hprints, hra, hprinted⟩ := hsame.exists_prints hself
  rw [← hsame.symbols.2, hsymbol] at hprinted
  obtain ⟨hprototype, ⟨body, hlines⟩, -⟩ := id hprinted
  -- The three files are opened one after another; each has the function that was lowered above.
  refine ⟨hsame, ps, ca, ga, ra, hps, hanswer, hprinted, fun hop => ⟨?_, ?_, ?_⟩⟩
  · intro files hfiles
    obtain ⟨code, hcode, hfiles⟩ := bind_eq_ok_iff.mp hfiles
    exact ⟨code, (pure_eq_ok_iff.mp hfiles).symm,
      hprototype _ _ ▸ Header.prototype_isInfix hcode hop header⟩
  · intro files hfiles
    obtain ⟨decls, -, hfiles⟩ := bind_eq_ok_iff.mp hfiles
    obtain ⟨exports, hexports, hfiles⟩ := bind_eq_ok_iff.mp hfiles
    obtain ⟨impls, -, hfiles⟩ := bind_eq_ok_iff.mp hfiles
    obtain rfl := pure_eq_ok_iff.mp hfiles
    refine ⟨Go.cgoFile ctx exports, body, ?_, ?_⟩
    · exact List.mem_append_left _ (List.mem_append_left _ (List.mem_cons_of_mem _ List.mem_cons_self))
    · have hinfix := Go.lines_isInfix_cgoFile hexports hop shim
      rw [hlines] at hinfix
      exact (List.prefix_append _ _).isInfix.trans hinfix
  · intro files hfiles
    obtain ⟨modules, es, hes, hmem⟩ := Rust.exists_exportFile hfiles
    obtain ⟨text, htext, hholds⟩ := Rust.exists_holds_export hes modules hop exported hprints hra
    exact ⟨Rust.exportFile ctx modules es, text, hmem, hsymbol ▸ htext, hholds⟩

/-- A method with a parameter of every class, a status and a result. -/
def printMethod : Method where
  name := "run"
  parameters := [⟨"type", "handle:Printer", none, none⟩, ⟨"title", "string", none, none⟩,
    ⟨"data", "buffer<uint8>", some .ref, none⟩, ⟨"room", "buffer<float64>", some .refMut, none⟩,
    ⟨"mode", "Geo.Mode", none, none⟩, ⟨"page", "Geo.Box", some .ref, none⟩,
    ⟨"clip", "Geo.Box", some .refMut, none⟩, ⟨"wait", "bool", none, none⟩]
  returns := some { type := "Geo.Box" }
  error := some "Jam"

/-- An interface with this method, and a constructor for the handle that it starts with. -/
def printInterface : Interface where
  name := "printer"
  constructors := [{ name := "open", returns := some { type := "handle:Printer" }, error := some "Jam" }]
  methods := [printMethod]

/-- A schema whose names need an escape in one language or another. -/
def printContext : Context where
  api := { metadata := { name := "press", version := "1.0.0", language := .go }, schemas := [],
           handles := [{ name := "Printer" }], interfaces := [printInterface] }
  types := ((Keyed.empty.insert "Geo.Mode" { kind := .enum, values := [⟨"Off", 0⟩] }).insert
    "Jam" { kind := .enum, values := [⟨"Ok", 0⟩, ⟨"Torn", 2⟩] }).insert
    "Geo.Box" { kind := .struct, fields := [⟨"width", .primitive .float32⟩] }

def printOperation : Operation := ⟨printInterface, .method, printMethod⟩

theorem shims_agree_print :
    ∃ c go rust, Signature.ofOperation printContext.apiName printOperation = .ok c ∧
      Go.CgoExport.ofOperation printContext printOperation = .ok go ∧
      Rust.Export.ofOperation printContext printOperation = .ok rust ∧
      c.params.length = 11 ∧ SameFunction printOperation.method c go rust.signature ∧
      ∃ ps ca ga ra, SameTexts printOperation.method ps ∧ SameAnswerText ca ga ra ∧
        PrintsFunction "press_printer_run" c go rust ps ca ga ra ∧
        StandsInFiles printContext printOperation ps ca ga ra ∧
        (∃ files, Header.emit printContext = .ok files) ∧ (∃ files, Go.emit printContext = .ok files) ∧
        ∃ files, Rust.emit printContext = .ok files := by
  -- That the three lowerings and the three emitters succeed is computed.
  obtain ⟨c, hc⟩ : ∃ c, Signature.ofOperation printContext.apiName printOperation = .ok c :=
    exists_ok_of_isOk (by decide)
  obtain ⟨go, hgo⟩ : ∃ go, Go.CgoExport.ofOperation printContext printOperation = .ok go :=
    exists_ok_of_isOk (by decide)
  obtain ⟨rust, hrust⟩ : ∃ rust, Rust.Export.ofOperation printContext printOperation = .ok rust :=
    exists_ok_of_isOk (by decide)
  have hlength : (Signature.ofOperation printContext.apiName printOperation).map
      (·.params.length) = .ok 11 := by decide
  have hsymbol : printOperation.symbol printContext.apiName = "press_printer_run" := by decide
  have hop : printOperation ∈ printContext.api.operations := by decide
  obtain ⟨hsame, ps, ca, ga, ra, hps, hanswer, hprints, hfiles⟩ := shims_agree hc hgo hrust
  refine ⟨c, go, rust, hc, hgo, hrust, ?_, hsame, ps, ca, ga, ra, hps, hanswer, hsymbol ▸ hprints,
    hfiles hop, ?_, ?_, ?_⟩
  · rw [hc] at hlength
    exact Except.ok.inj hlength
  · exact exists_ok_of_isOk (by decide +kernel)
  · exact exists_ok_of_isOk (by decide +kernel)
  · exact exists_ok_of_isOk (by decide +kernel)

end Bindery
