import Bindery.Proofs.Nesting
import Bindery.Proofs.Operations
import Bindery.Proofs.Wasm.Codecs.Files
import Bindery.Proofs.Wasm.Linking
import Bindery.Proofs.Wasm.Results

/-!
# Results fit the room that is reserved for them

An operation with a status, and one that returns a record, hands its result over in memory:
JavaScript reserves room for it and passes the address, Go stores the result there, and
JavaScript reads it back. What either side does is read off the code of the two files:

* `ReadsResult` — the body of the wrapper, with the size of the room and the expression that reads
  the result, and with what all other statements do;
* `ExportCode` — the exported function, with what it stores through its result pointer;
* `JavaScriptCode`, `GoCode` — the codecs that both of them call.

`result_fits` puts these together: since codecs stay inside their records, neither side reaches
beyond the room, not even for a record in which slots share a name. It asks that the sizes of the
records inside the result are words of 32 bits, and then they are computed in words (`Abi.InWords`),
so the room is as large as its digits say.

Pointers are told apart by their names. A parameter that is named like the result pointer
makes a second declaration of the name in the same scope, which neither language accepts.
-/

namespace Bindery

open JavaScript (Arg Wrapper)
open Go (WasmCodec WasmParam WasmExport)

namespace Wasm

variable {types : Schema} {ctx : Context} {s : Storage}

/-! ### The wrapper -/

/-- **A call in print**, and the check of its status if it has one. -/
inductive Calls (m : Method) (call : String) : List Line → Prop where
  | plain (infallible : m.error = none) : Calls m call [{ text := call ++ ";" }]
  | checked (name : String) (fallible : m.error ≠ none) :
      Calls m call [{ text := "const _rc = " ++ call ++ ";" }, { text := "if (_rc !== 0)" ++ " \x7b" },
        { depth := 1, text := "throw new Error(`" ++ name ++ " failed with error code $\x7b_rc\x7d`);" },
        { text := "\x7d" }]

/-- **A body that reads its result from the room that it has reserved.** The room is bound last, and
read in the statement that returns the result. All other statements go through the pointers of
parameters. -/
inductive ReadsResult (m : Method) (call : String) (n : Nat) (s : Storage) : List Line → Prop where
  | intro {setup back frees : List String} {calls : List Line} {load : String}
      (setsUp : ∀ line ∈ setup, line = "const allocs = [];" ∨ ∃ p ∈ m.parameters, SetsUp p line)
      (called : Calls m call calls)
      (readsBack : ∀ line ∈ back, ∃ p ∈ m.parameters, ReadsBack p line)
      (loads : LoadsResult s load)
      (freed : ∀ line ∈ frees, line = "allocs.forEach(_free);" ∨ ∃ ptr, line = "_free(" ++ ptr ++ ");") :
      ReadsResult m call n s
        (Code.lines (setup ++ ["const _outPtr = _malloc(" ++ toString n ++ ");"]) ++ Code.lines ["try \x7b"]
          ++ Code.indent (calls ++ Code.lines back ++ Code.lines ["return " ++ load ++ ";"])
          ++ Code.lines ["\x7d finally \x7b"] ++ Code.indent (Code.lines frees) ++ Code.lines ["\x7d"])

/-- **The code of a wrapper** that calls an operation with these arguments. -/
def WrapperCode (ctx : Context) (op : Operation) (args : List String) (n : Nat) (s : Storage)
    (lines : List Line) : Prop :=
  ∃ head body, lines = [{ text := head ++ " \x7b" }] ++ Code.indent body ++ [{ text := "\x7d," }] ∧
    ReadsResult op.method
      ("_wasm.exports." ++ op.symbol ctx.apiName ++ "(" ++ Text.commaSep args ++ ")") n s body

/-- **The code of an exported function** with these parameters. -/
def ExportCode (ctx : Context) (op : Operation) (params : List String) (s : Storage)
    (lines : List Line) : Prop :=
  ∃ answer body, lines = [{ text := "//go:wasmexport " ++ op.symbol ctx.apiName },
      { text := "func " ++ op.symbol ctx.apiName ++ "(" ++ Text.commaSep params ++ ")" ++ answer
          ++ " \x7b" }]
      ++ Code.indent body ++ [{ text := "\x7d" }, { text := "" }] ∧
    StoresResult op (resultName op.method) s body

/-- **What a wrapper is printed as.** -/
theorem exists_wrapperCode {op : Operation} {w : Wrapper} (h : Wrapper.ofOperation ctx op = .ok w)
    {r : Returns} (hr : ReturnsInMemory ctx.types op.method r) :
    ∃ n s, Abi.valueSize ctx.types r.type = .ok n ∧ resultStorage? ctx.types r.type = some s ∧
      WrapperCode ctx op (w.args.map Arg.text) n s w.lines := by
  obtain ⟨n, s, setup, load, hsize, hs, hloads, hsetup, hfrees, houtcome, hfront, hback⟩ :=
    exists_room_of_wrapper h hr
  obtain ⟨_, _, steps⟩ := exists_steps_of_wrapper h
  have hcall : w.call = "_wasm.exports." ++ op.symbol ctx.apiName ++ "("
      ++ Text.commaSep (w.args.map Arg.text) ++ ")" := by
    rw [Wrapper.call, Wrapper.exportCall, steps.symbol]
    rfl
  -- there is something to free, so there is a `try`
  have hallocates : w.allocates = true := by
    rw [Wrapper.allocates, List.isEmpty_eq_false_iff.mpr (List.ne_nil_of_mem hfrees)]
    rfl
  refine ⟨n, s, hsize, hs, _, w.body, rfl, ?_⟩
  rw [Wrapper.body, if_pos hallocates, hsetup, ← hcall]
  obtain ⟨calls, hcalls, hlines⟩ : ∃ calls, Calls op.method w.call calls ∧ w.callLines =
      calls ++ Code.lines (w.writeBacks.map JavaScript.WriteBack.text)
        ++ Code.lines ["return " ++ load ++ ";"] := by
    by_cases herror : op.method.error = none
    · rw [if_pos herror] at houtcome
      exact ⟨_, .plain herror, by rw [Wrapper.callLines, houtcome]; rfl⟩
    · rw [if_neg herror] at houtcome
      exact ⟨_, .checked w.name herror, by rw [Wrapper.callLines, houtcome]; rfl⟩
  have hroom : Code.lines ((setup ++ [JavaScript.Setup.reserve "_outPtr" n]).map JavaScript.Setup.text) =
      Code.lines (setup.map JavaScript.Setup.text ++ ["const _outPtr = _malloc(" ++ toString n ++ ");"]) := by
    rw [List.map_append]
    rfl
  have hfreed : w.freeLines = Code.lines (w.frees.map (fun f => "_free(" ++ f ++ ");")
      ++ if w.usesAllocs then ["allocs.forEach(_free);"] else []) := by
    simp only [Wrapper.freeLines, Code.lines, List.map_append]
    split <;> rfl
  rw [hroom, hlines, hfreed]
  refine .intro (fun line hline => ?_) hcalls (fun line hline => ?_) hloads fun line hline => ?_
  · obtain ⟨x, hx, rfl⟩ := List.mem_map.mp hline
    exact (hfront x hx).imp_left fun h => by rw [h]; rfl
  · obtain ⟨b, hb, rfl⟩ := List.mem_map.mp hline
    exact hback b hb
  · rcases List.mem_append.mp hline with hline | hline
    · obtain ⟨ptr, -, rfl⟩ := List.mem_map.mp hline
      exact .inr ⟨ptr, rfl⟩
    · split at hline
      · exact .inl (List.mem_singleton.mp hline)
      · exact absurd hline List.not_mem_nil

/-- **What an exported function is printed as.** -/
theorem exportCode_of_export {op : Operation} {e : WasmExport} (h : WasmExport.ofOperation ctx op = .ok e)
    {r : Returns} (hr : ReturnsInMemory ctx.types op.method r)
    (hs : resultStorage? ctx.types r.type = some s) :
    ExportCode ctx op (e.params.map WasmParam.text) s e.lines := by
  obtain ⟨-, -, -, hsymbol, -⟩ := exists_params_of_export h
  refine ⟨e.answer.text, e.body, ?_, storesResult_of_export h hr hs⟩
  rw [WasmExport.lines, hsymbol]
  simp only [Code.block, Code.blockWith, Code.enclosed, List.cons_append, List.append_assoc]
  rfl

/-! ### The files -/

/-- The lines of each group stand in what is put together from all groups. -/
theorem isInfix_spaced {groups : List (List Line)} {g : List Line} (hg : g ∈ groups) :
    g <:+: JavaScript.spaced groups := by
  cases groups with
  | nil => exact absurd hg List.not_mem_nil
  | cons first rest =>
    rw [JavaScript.spaced]
    rcases List.mem_cons.mp hg with rfl | hg
    · exact (List.prefix_append _ _).isInfix
    · rw [List.flatMap_def]
      exact List.infix_append_of_infix_right ((List.suffix_append _ _).isInfix.trans
        (List.infix_of_mem_flatten (List.mem_map_of_mem hg)))

/-- **The wrapper of an operation stands in the module**, in the object of its interface. -/
theorem wrapper_inModule {op : Operation} (hop : op ∈ ctx.api.operations) (hkind : op.kind ≠ .destructor)
    {w : Wrapper} (hw : Wrapper.ofOperation ctx op = .ok w) :
    InModule ctx (Code.indent (Code.indent w.lines)) := by
  intro files hfiles
  obtain ⟨m, hm, hfiles⟩ := bind_eq_ok_iff.mp hfiles
  obtain ⟨codecs, -, hm⟩ := bind_eq_ok_iff.mp hm
  obtain ⟨interfaces, hinterfaces, hm⟩ := bind_eq_ok_iff.mp hm
  obtain rfl := pure_eq_ok_iff.mp hm
  refine ⟨_, (pure_eq_ok_iff.mp hfiles).symm, ?_⟩
  -- among the wrappers of its interface
  obtain ⟨i, hi, hop⟩ := List.mem_flatMap.mp hop
  obtain ⟨p, hmem, hpair⟩ := exists_mem_of_forall₂ (mapM_eq_ok_iff.mp hinterfaces) hi
  obtain ⟨ws, hws, hpair⟩ := bind_eq_ok_iff.mp hpair
  obtain rfl := pure_eq_ok_iff.mp hpair
  have hwritten : op ∈ i.operations.filter fun op => op.kind ≠ .destructor :=
    List.mem_filter.mpr ⟨hop, by simpa using hkind⟩
  obtain ⟨w', hw', hof⟩ := exists_mem_of_forall₂ (mapM_eq_ok_iff.mp hws) hwritten
  obtain rfl := Except.ok.inj (hw.symm.trans hof)
  have hspaced := isInfix_spaced (List.mem_map_of_mem (f := Wrapper.lines) hw')
  have hbody : Code.indent (Code.indent w.lines) <:+: JavaScript.interfaceLines i ws := by
    rw [JavaScript.interfaceLines]
    refine List.infix_append_of_infix_left (List.infix_append_of_infix_right ?_)
    exact infix_blockWith (infix_blockWith hspaced)
  have hall : Code.indent (Code.indent w.lines) <:+:
      interfaces.flatMap fun p => JavaScript.interfaceLines p.1 p.2 := by
    rw [List.flatMap_def]
    exact hbody.trans (List.infix_of_mem_flatten (List.mem_map.mpr ⟨_, hmem, rfl⟩))
  rw [JavaScript.Module.lines]
  refine List.infix_append_of_infix_left (List.infix_append_of_infix_left ?_)
  exact List.infix_append_of_infix_right hall

/-- **The exported function of an operation stands in the file of exports.** -/
theorem export_inExports {op : Operation} (hop : op ∈ ctx.api.operations) {e : WasmExport}
    (he : WasmExport.ofOperation ctx op = .ok e) : InExports ctx e.lines := by
  intro files hfiles
  obtain ⟨f, hf, hfiles⟩ := bind_eq_ok_iff.mp hfiles
  obtain ⟨codecs, -, hf⟩ := bind_eq_ok_iff.mp hf
  obtain ⟨interfaces, hinterfaces, hf⟩ := bind_eq_ok_iff.mp hf
  obtain rfl := pure_eq_ok_iff.mp hf
  refine ⟨_, (pure_eq_ok_iff.mp hfiles).symm, ?_⟩
  obtain ⟨i, hi, hop⟩ := List.mem_flatMap.mp hop
  obtain ⟨p, hmem, hpair⟩ := exists_mem_of_forall₂ (mapM_eq_ok_iff.mp hinterfaces) hi
  obtain ⟨es, hes, hpair⟩ := bind_eq_ok_iff.mp hpair
  obtain rfl := pure_eq_ok_iff.mp hpair
  obtain ⟨e', he', hof⟩ := exists_mem_of_forall₂ (mapM_eq_ok_iff.mp hes) hop
  obtain rfl := Except.ok.inj (he.symm.trans hof)
  have hinterface : e.lines <:+: es.flatMap WasmExport.lines := by
    rw [List.flatMap_def]
    exact List.infix_of_mem_flatten (List.mem_map_of_mem he')
  rw [Go.WasmFile.lines, @List.flatMap_def _ _ interfaces]
  refine List.infix_append_of_infix_right ?_
  exact (List.infix_append_of_infix_right hinterface).trans
    (List.infix_of_mem_flatten (List.mem_map.mpr ⟨_, hmem, rfl⟩))

/-! ### Inside the room -/

/-- **A result that stays inside the room that is reserved for it.** -/
structure ResultFits (ctx : Context) (op : Operation) (r : Returns) (w : Wrapper) (e : WasmExport)
    (js : List JavaScript.Codec) (go : List WasmCodec) (n : Nat) (s : Storage) : Prop where
  held : resultStorage? ctx.types r.type = some s
  size : Abi.valueSize ctx.types r.type = .ok n
  /-- The wrapper reserves room of this size and passes its address where Go declares its result
  pointer. What it reads from there, and what Go stores there, is a value of the storage. -/
  code : ∃ (args params : List String) (i : Nat), args[i]? = some "_outPtr" ∧
    params[i]? = some (resultName op.method ++ " uintptr") ∧
    WrapperCode ctx op args n s w.lines ∧ ExportCode ctx op params s e.lines
  /-- The codecs of Go are the code of these touches. -/
  goCode : ∀ g ∈ go, GoCode g.record (g.accesses.map goTouch) g.lines
  /-- No byte that Go stores lies outside of the room. -/
  storesInside : ∀ ptr start stop, Covers (GoTouches go) s ptr start stop →
    ptr ≤ start ∧ stop ≤ ptr + n
  /-- The codecs of JavaScript are the code of these touches. -/
  javaScriptCode : ∀ c ∈ js, JavaScriptCode c.record (c.accesses.map javaScriptTouch) c.lines
  /-- No byte that JavaScript reads lies outside of the room. -/
  readsInside : ∀ ptr start stop, Covers (JavaScriptTouches js) s ptr start stop →
    ptr ≤ start ∧ stop ≤ ptr + n
  /-- The size of the room is a word, and the layouts inside of it are computed in words. -/
  words : n < UInt32.size ∧ ∀ name l, Relation.ReflTransGen ctx.types.Holds r.type name →
    Abi.layout ctx.types name = .ok l → Abi.InWords ctx.types name l
  /-- All of this stands in the two files. -/
  stands : (∀ c ∈ js, InModule ctx c.lines) ∧ (∀ g ∈ go, InExports ctx g.lines) ∧
    (op ∈ ctx.api.operations →
      InModule ctx (Code.indent (Code.indent w.lines)) ∧ InExports ctx e.lines)

/-- The size of a result is a word if the sizes of records are. -/
theorem valueSize_lt {ty : String} {n : Nat} (h : Abi.valueSize types ty = .ok n)
    (fits : Abi.FitsWords types ty) : n < UInt32.size := by
  -- Everything but a record has one of a few fixed sizes.
  unfold Abi.valueSize at h
  split at h
  · next p _ =>
    obtain rfl := Except.ok.inj h
    cases p <;> decide
  · next name hname =>
    split at h
    · cases h
    · split at h
      · obtain rfl := Except.ok.inj h
        decide
      · -- a record has the size of its layout
        obtain ⟨l, hl, rfl⟩ := map_eq_ok_iff.mp h
        obtain rfl : ty = name := (TypeRef.text_of_ofString? hname).1
        exact fits ty l .refl hl
  · obtain rfl := Except.ok.inj h
    decide

/-- A codec of Go is the code of what its accesses touch. -/
theorem goCode_of_mem {go : List WasmCodec} (hgo : WasmCodec.all types = .ok go) {g : WasmCodec}
    (hg : g ∈ go) : GoCode g.record (g.accesses.map goTouch) g.lines := by
  have hperforms : ∀ a ∈ g.accesses, GoPerforms types (goTouch a) a := by
    intro a ha
    obtain ⟨l, d, -, -, f, -, hfield⟩ := exists_field_of_go hgo hg ha
    exact (found_of_go hfield).2
  exact goCode_of_performs (List.forall₂_map_left_iff.mpr (List.forall₂_same.mpr hperforms))

/-- A codec of JavaScript is the code of what its accesses touch. -/
theorem javaScriptCode_of_mem {js : List JavaScript.Codec} (hjs : JavaScript.Codec.all types = .ok js)
    {c : JavaScript.Codec} (hc : c ∈ js) :
    JavaScriptCode c.record (c.accesses.map javaScriptTouch) c.lines := by
  have hperforms : ∀ a ∈ c.accesses, JavaScriptPerforms types (javaScriptTouch a) a := by
    intro a ha
    obtain ⟨l, d, -, -, f, -, hfield⟩ := exists_field_of_javaScript hjs hc ha
    exact (found_of_javaScript hfield).2
  exact javaScriptCode_of_performs (List.forall₂_map_left_iff.mpr (List.forall₂_same.mpr hperforms))

/-- A result goes through no destructor. -/
theorem kind_ne_destructor {op : Operation} (hop : op ∈ ctx.api.operations) {r : Returns}
    (hr : ReturnsInMemory ctx.types op.method r) : op.kind ≠ .destructor := by
  intro hkind
  obtain ⟨i, hi, hop⟩ := List.mem_flatMap.mp hop
  rcases mem_operations_iff.mp hop with ⟨c, -, rfl⟩ | ⟨h, -, rfl⟩ | ⟨m, -, rfl⟩
  · cases hkind
  · cases hr.returns
  · cases hkind

/-- **Results are never overrun.** Whenever both sides of an operation are made, and with
them the codecs, what Go stores and what JavaScript reads through the result pointer lies
inside the room that JavaScript reserves. Sizes are words, so this asks that the records inside the
result take no more room than there are addresses. -/
theorem result_fits {op : Operation} {w : Wrapper} {e : WasmExport} {js : List JavaScript.Codec}
    {go : List WasmCodec} {r : Returns} (hw : Wrapper.ofOperation ctx op = .ok w)
    (he : WasmExport.ofOperation ctx op = .ok e)
    (hjs : JavaScript.Codec.all ctx.types = .ok js) (hgo : WasmCodec.all ctx.types = .ok go)
    (hr : ReturnsInMemory ctx.types op.method r) (fits : Abi.FitsWords ctx.types r.type) :
    ∃ n s, ResultFits ctx op r w e js go n s := by
  obtain ⟨n, s, hsize, hs, hwrapper⟩ := exists_wrapperCode hw hr
  have hspans : s.Spans ctx.types n := spans_of_valueSize hsize hs
  refine ⟨n, s, hs, hsize, ?_, ?_, ?_, ?_, ?_, ⟨valueSize_lt hsize fits, ?_⟩, ?_, ?_, ?_⟩
  · -- both sides follow the convention, so the position is the same
    obtain ⟨place, hplace, hname⟩ := exists_mem_convention hr
    obtain ⟨i, hi⟩ := List.getElem?_of_mem hplace
    refine ⟨_, _, i, ?_, ?_, hwrapper, exportCode_of_export he hr hs⟩
    · rw [args_eq_convention hw, List.map_map, List.getElem?_map, hi]
      rfl
    · rw [params_eq_convention he, List.map_map, List.getElem?_map, hi, Option.map_some,
        Function.comp_apply, hname]
      rfl
  · exact fun g hg => goCode_of_mem hgo hg
  · intro ptr start stop hcovers
    exact hcovers.within (staysInside_go hgo) hspans
  · exact fun c hc => javaScriptCode_of_mem hjs hc
  · intro ptr start stop hcovers
    exact hcovers.within (staysInside_javaScript hjs) hspans
  · intro name l hpath hl
    exact Abi.inWords_of_layout hl (fits name l hpath hl)
  · exact fun c hc => codec_inModule hjs hc
  · exact fun g hg => codec_inExports hgo hg
  · exact fun hop => ⟨wrapper_inModule hop (kind_ne_destructor hop hr) hw, export_inExports hop he⟩

/-- A method that returns a record. -/
def trailMethod : Method where
  name := "trail"
  parameters := [⟨"canvas", "handle:Canvas", none, none⟩]
  returns := some { type := "Trail" }

/-- A description with this method. In the record a field has the name of the count of a vector, and
another field is a record. -/
def trailContext : Context where
  api := { metadata := { name := "canvas", version := "1.0.0", language := .go }, schemas := [],
           interfaces := [{ name := "painter", methods := [trailMethod] }] }
  types := (Keyed.empty.insert "Dot" { kind := .struct, fields := [⟨"x", .primitive .int16⟩,
      ⟨"on", .primitive .bool⟩] }).insert
    "Trail" { kind := .table, fields := [⟨"dots", .vector (.named "Dot")⟩,
      ⟨"dots_count", .primitive .uint64⟩, ⟨"first", .named "Dot"⟩] }

def trailOperation : Operation := ⟨{ name := "painter", methods := [trailMethod] }, .method, trailMethod⟩

/-- The accesses of Go to a trail: the field goes to the slot of the count. -/
def trailCodecs : List WasmCodec :=
  [{ record := "Dot", accesses := [.plain "x" 0 (.scalar .int16), .plain "on" 2 (.scalar .bool)] },
    { record := "Trail", accesses := [.vector "dots" 0 4 4 (.record "Dot"),
      .plain "dots_count" 4 (.scalar .uint64), .plain "first" 16 (.record "Dot")] }]

theorem result_fits_trail :
    ∃ w e js, Wrapper.ofOperation trailContext trailOperation = .ok w ∧
      WasmExport.ofOperation trailContext trailOperation = .ok e ∧
      JavaScript.Codec.all trailContext.types = .ok js ∧
      WasmCodec.all trailContext.types = .ok trailCodecs ∧
      ResultFits trailContext trailOperation { type := "Trail" } w e js trailCodecs 24
        (.record "Trail") ∧
      Covers (GoTouches trailCodecs) (.record "Trail") 0 4 12 ∧
      trailOperation ∈ trailContext.api.operations := by
  -- the layout of the record is all that takes more than looking at the operation
  have hsize : Abi.valueSize trailContext.types "Trail" = .ok 24 := by cbv
  have hplace : JavaScript.resultPlace? trailContext trailOperation.method =
      some (.leading, "Trail") := by decide +kernel
  obtain ⟨w, hw⟩ : ∃ w, Wrapper.ofOperation trailContext trailOperation = .ok w := by
    apply exists_ok_of_isOk
    simp only [Wrapper.ofOperation, hplace, hsize]
    decide +kernel
  obtain ⟨e, he⟩ : ∃ e, WasmExport.ofOperation trailContext trailOperation = .ok e :=
    exists_ok_of_isOk (by decide +kernel)
  obtain ⟨js, hjs⟩ : ∃ js, JavaScript.Codec.all trailContext.types = .ok js :=
    exists_ok_of_isOk (by cbv)
  have hgo : WasmCodec.all trailContext.types = .ok trailCodecs := by cbv
  have hr : ReturnsInMemory trailContext.types trailOperation.method { type := "Trail" } :=
    ⟨rfl, .inr (by decide +kernel)⟩
  obtain ⟨lt, hlt, htrail⟩ : ∃ l, Abi.layout trailContext.types "Trail" = .ok l ∧ l.size = 24 :=
    ⟨_, by cbv, rfl⟩
  have hwords : Abi.FitsWords trailContext.types "Trail" :=
    Abi.fitsWords_of_layout hlt (htrail ▸ by decide)
  obtain ⟨n, s, hfits⟩ := result_fits hw he hjs hgo hr hwords
  obtain rfl : 24 = n := Except.ok.inj (hsize.symm.trans hfits.size)
  have hheld : resultStorage? trailContext.types "Trail" = some (.record "Trail") := by
    decide +kernel
  obtain rfl := Option.some.inj (hheld.symm.trans hfits.held)
  -- the eight bytes of the field begin at the count and go on into its own slot
  have htouched : GoTouches trailCodecs "Trail"
      (.plain "dots_count" 4 (.number ⟨8, .unsigned⟩)) :=
    ⟨trailCodecs[1], by decide, rfl, .plain "dots_count" 4 (.scalar .uint64), by decide, rfl⟩
  exact ⟨w, e, js, hw, he, hjs, hgo, hfits, .field htouched (.number ⟨8, .unsigned⟩ 4), by decide⟩

end Wasm

end Bindery
