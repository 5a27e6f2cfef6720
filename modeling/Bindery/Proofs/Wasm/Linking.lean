import Bindery.Emit.Build.Makefile
import Bindery.Emit.Go
import Bindery.Proofs.Lifetimes
import Bindery.Proofs.Wasm.Calls
import Bindery.Proofs.Wasm.Directives

/-!
# The two halves of a web module link

A web module is a library in Go, compiled to a file of exports and imports, and a module in
JavaScript that loads it. Nothing but names holds the two together. They come from one
description by separate ways: wrappers call operations, the class of a handle calls the
destructor that it finds for it, the library exports operations under its directives, and
the build of another compiler lists them once more.

* `exports_eq_operations` — the library exports the allocator and then every operation;
* `resolved_of_mem` — so what the module calls is exported, its start apart;
* `wrappers_link` — each constructor and each method has a wrapper that calls it alone;
* `map_hostFunctions` — the host provides what the library imports.

`Links` is what holds of the two halves together, and `web_module_links` that it holds
whenever both are emitted. The start of the module is the exception: it is exported by the
compiler and not by a directive, under one of two names, and the module tests for each
before it calls it.
-/

namespace Bindery

/-! ### The Go file -/

namespace Go

/-- **What a file of exports is made of.** -/
theorem exists_of_wasmFile {ctx : Context} {f : WasmFile} (h : WasmFile.ofContext ctx = .ok f) :
    f.imports = Abi.services.map (WasmImport.ofService ctx.apiName) ∧
      List.Forall₂ (fun i p => p.1 = i ∧
        List.Forall₂ (fun op e => WasmExport.ofOperation ctx op = .ok e) i.operations p.2)
        ctx.api.interfaces f.interfaces := by
  obtain ⟨codecs, -, h⟩ := bind_eq_ok_iff.mp h
  obtain ⟨interfaces, hinterfaces, h⟩ := bind_eq_ok_iff.mp h
  obtain rfl := pure_eq_ok_iff.mp h
  refine ⟨rfl, (mapM_eq_ok_iff.mp hinterfaces).imp fun i p hp => ?_⟩
  obtain ⟨es, hes, hp⟩ := bind_eq_ok_iff.mp hp
  obtain rfl := pure_eq_ok_iff.mp hp
  exact ⟨rfl, mapM_eq_ok_iff.mp hes⟩

/-- **The file exports the allocator and then every operation**, in order. -/
theorem exports_eq_operations {ctx : Context} {f : WasmFile} (h : WasmFile.ofContext ctx = .ok f) :
    directives exportDirective f.lines =
      "malloc" :: "free" :: ctx.api.operations.map (·.symbol ctx.apiName) := by
  obtain ⟨-, hinterfaces⟩ := exists_of_wasmFile h
  have hsymbols : f.interfaces.flatMap (fun p => p.2.map (·.symbol)) =
      ctx.api.operations.map (·.symbol ctx.apiName) := by
    refine Wasm.flatMap_eq_map_flatMap (hinterfaces.imp fun i p hp => ?_)
    refine map_eq_map_of_forall₂ hp.2 fun op e he => ?_
    obtain ⟨-, -, -, hsymbol, -⟩ := Wasm.exists_params_of_export he
    exact hsymbol
  rw [exports_eq, hsymbols]

/-- **Every operation is exported.** -/
theorem exports_operation {ctx : Context} {f : WasmFile} (h : WasmFile.ofContext ctx = .ok f)
    {op : Operation} (hop : op ∈ ctx.api.operations) : Exports f.lines (op.symbol ctx.apiName) := by
  obtain ⟨-, hinterfaces⟩ := exists_of_wasmFile h
  obtain ⟨i, hi, hop⟩ := List.mem_flatMap.mp hop
  obtain ⟨p, hp, -, hes⟩ := exists_mem_of_forall₂ hinterfaces hi
  obtain ⟨e, he, hof⟩ := exists_mem_of_forall₂ hes hop
  obtain ⟨-, -, -, hsymbol, -⟩ := Wasm.exists_params_of_export hof
  rw [← hsymbol]
  exact exports_of_mem hp he

/-- Nothing else is exported. -/
theorem not_exports_of_not_mem {ctx : Context} {f : WasmFile} (h : WasmFile.ofContext ctx = .ok f)
    {symbol : String}
    (hsymbol : symbol ∉ "malloc" :: "free" :: ctx.api.operations.map (·.symbol ctx.apiName)) :
    ¬ Exports f.lines symbol := by
  intro hexports
  have hmem := mem_directives_of_exports hexports
  rw [exports_eq_operations h] at hmem
  exact hsymbol hmem

end Go

namespace Wasm

open JavaScript Go

variable {ctx : Context}

/-! ### What the host provides -/

/-- **The host provides what the library imports**: the same names with as many parameters. -/
theorem map_hostFunctions (api : String) :
    hostFunctions.map (fun h => (h.key api, h.params.length)) =
      (Abi.services.map (WasmImport.ofService api)).map fun i => (i.symbol, i.params.length) :=
  rfl

theorem nodup_keys (api : String) : (hostFunctions.map (·.key api)).Nodup := by
  have hservices : (hostFunctions.map (·.service)).Nodup := by decide
  have hkeys := hservices.map (f := Naming.serviceSymbol api) fun a b h => by
    simpa [Naming.serviceSymbol] using h
  rwa [List.map_map] at hkeys

/-! ### Parts of the module -/

theorem infix_blockWith {header close : String} {as body : List Line} (h : as <:+: body) :
    Code.indent as <:+: Code.blockWith header close body :=
  (h.map _).trans ⟨[{ text := header ++ " \x7b" }], [{ text := close }], rfl⟩

/-- **The parts of the module** that the other half depends on. -/
theorem parts_infix_lines (ctx : Context) (m : Module) :
    importLines ctx.apiName <:+: m.lines ctx ∧ loaderLines ctx <:+: m.lines ctx ∧
      m.interfaces.flatMap (fun (i, ws) => interfaceLines i ws) <:+: m.lines ctx := by
  rw [Module.lines]
  have hback : ∀ {ls front behind : List Line}, ls <:+: front → ls <:+: front ++ behind :=
    List.infix_append_of_infix_left
  refine ⟨?_, ?_, ?_⟩
  · exact hback (hback (hback (hback (List.suffix_append _ _).isInfix)))
  · exact hback (hback (hback (List.suffix_append _ _).isInfix))
  · exact hback (hback (List.suffix_append _ _).isInfix)

/-- The object of what the host provides stands in the module. -/
theorem env_infix_lines (ctx : Context) (m : Module) :
    Code.indent (Code.indent (Code.blockWith "env:" "\x7d,"
      (hostFunctions.flatMap (HostFunction.lines ctx.apiName)))) <:+: m.lines ctx := by
  refine List.IsInfix.trans ?_ (parts_infix_lines ctx m).1
  rw [JavaScript.importLines]
  refine List.infix_append_of_infix_left (List.infix_append_of_infix_right (infix_blockWith ?_))
  exact List.infix_append_of_infix_right (infix_blockWith (List.prefix_append _ _).isInfix)

/-- The start of the module stands in it. -/
theorem start_infix_lines (ctx : Context) (m : Module) :
    Code.indent startLines <:+: m.lines ctx := by
  refine List.IsInfix.trans ?_ (parts_infix_lines ctx m).2.1
  rw [loaderLines]
  refine List.infix_append_of_infix_left (List.infix_append_of_infix_right (infix_blockWith ?_))
  exact List.infix_append_of_infix_left (List.suffix_append _ _).isInfix

/-- Each start is called behind a test for it. -/
theorem guards_infix_start :
    [{ depth := 1, text := "if (_wasm.exports._initialize) \x7b" },
      { depth := 2, text := "_wasm.exports._initialize();" },
      { depth := 1, text := "\x7d else if (_wasm.exports._start) \x7b" },
      { depth := 2, text := "try \x7b" },
      { depth := 3, text := "_wasm.exports._start();" }] <:+: Code.indent startLines :=
  ⟨(Code.indent startLines).take 2, (Code.indent startLines).drop 7, rfl⟩

/-! ### The two halves -/

/-- **The lines make one call of an export**, of this one, and no other. -/
def OnlyCalls (ls : List Line) (symbol : String) : Prop :=
  ∃ pre l post, ls = pre ++ l :: post ∧ CallsIn l.text symbol ∧
    (∀ other, CallsIn l.text other → other = symbol) ∧
    ∀ l' ∈ pre ++ post, ∀ other, ¬ CallsIn l'.text other

/-- Whatever the lines call is this export. -/
theorem OnlyCalls.eq_of_callsIn {ls : List Line} {symbol other : String} (h : OnlyCalls ls symbol)
    {l : Line} (hl : l ∈ ls) (hcalls : CallsIn l.text other) : other = symbol := by
  obtain ⟨pre, l', post, rfl, -, hthis, hothers⟩ := h
  by_cases heq : l = l'
  · subst heq
    exact hthis other hcalls
  · have hmem : l ∈ pre ++ post := by
      simpa [heq] using hl
    exact absurd hcalls (hothers l hmem other)

theorem not_callsIn_of_silent {s symbol : String} (h : Silent s) : ¬ CallsIn s symbol := by
  rintro ⟨-, before, behind, htext⟩
  exact h.ne_append_path before _ htext

theorem onlyCalls_of_callsOnce {c : ExportCall} {ls : List Line} (h : CallsOnce c ls)
    (plain : c.Plain) : OnlyCalls ls c.symbol := by
  obtain ⟨pre, depth, before, behind, post, rfl, hpre, hbefore, hbehind, hpost⟩ := h
  refine ⟨pre, _, post, rfl, ?_, fun other hother => ?_, fun l hl other => ?_⟩
  · refine ⟨plain.symbol.not_mem rfl, before, Text.commaSep c.args ++ ")" ++ behind, ?_⟩
    simp only [c.text_eq, String.append_assoc]
  · obtain ⟨c', hc', rfl⟩ := exists_call_of_callsIn
      (.call before behind (List.mem_singleton_self c) plain hbefore hbehind) hother
    rw [List.mem_singleton.mp hc']
  · rcases List.mem_append.mp hl with hl | hl
    · exact not_callsIn_of_silent (hpre l hl)
    · exact not_callsIn_of_silent (hpost l hl)

/-- **The two halves of a web module link**: every name on one side is found on the other. -/
structure Links (ctx : Context) (m : Module) (f : WasmFile) : Prop where
  /-- Every call of an export stands in the module. -/
  shown : ∀ c ∈ m.exportCalls, Shows c (m.lines ctx)
  /-- What is called is the allocator, a start of the module, or a function that the library
  exports. -/
  resolved : ∀ c ∈ m.exportCalls,
    c ∈ [mallocCall, freeCall] ∨ c ∈ [initializeCall, startCall] ∨ Exports f.lines c.symbol
  /-- If names are words, then nothing else is called, outside of what the description says
  about handles. -/
  complete : ctx.Worded → ∀ l ∈ m.lines ctx, (∀ h ∈ ctx.api.handles, ¬ IsRemark h l.text) →
    ∀ symbol, CallsIn l.text symbol →
      symbol ∈ ["malloc", "free", "_initialize", "_start"] ∨ Exports f.lines symbol
  /-- Each start is called behind a test for it. -/
  guarded :
    [{ depth := 1, text := "if (_wasm.exports._initialize) \x7b" },
      { depth := 2, text := "_wasm.exports._initialize();" },
      { depth := 1, text := "\x7d else if (_wasm.exports._start) \x7b" },
      { depth := 2, text := "try \x7b" },
      { depth := 3, text := "_wasm.exports._start();" }] <:+: m.lines ctx
  /-- The library exports the allocator and then, in order, what the other build of the
  module exports, there with an underscore in front. -/
  exports : ∃ symbols, directives exportDirective f.lines = "malloc" :: "free" :: symbols ∧
    Build.wasmExports ctx = "_malloc" :: "_free" :: symbols.map ("_" ++ ·)
  /-- Each constructor and each method has one wrapper, which calls it and nothing else. -/
  wrappers : List.Forall₂ (fun i p => p.1 = i ∧ interfaceLines i p.2 <:+: m.lines ctx ∧
    List.Forall₂ (fun op w => w.exportCall.symbol = op.symbol ctx.apiName ∧
      Shows w.exportCall w.lines ∧ (ctx.Worded → OnlyCalls w.lines (op.symbol ctx.apiName)))
      (i.operations.filter fun op => op.kind ≠ .destructor) p.2) ctx.api.interfaces m.interfaces
  /-- The host provides an object of six functions. -/
  env : Code.indent (Code.indent (Code.blockWith "env:" "\x7d,"
    (hostFunctions.flatMap (HostFunction.lines ctx.apiName)))) <:+: m.lines ctx
  six : hostFunctions.length = 6 ∧ (hostFunctions.map (·.key ctx.apiName)).Nodup
  /-- Their keys are the names that the library imports, and their parameters are as many. -/
  imports : directives importDirective f.lines = hostFunctions.map (·.key ctx.apiName) ∧
    f.imports.flatMap WasmImport.lines <:+: f.lines ∧
    f.imports.map (fun i => (i.symbol, i.params.length)) =
      hostFunctions.map fun h => (h.key ctx.apiName, h.params.length)

/-- **What the module calls is exported**, the allocator and the start of the module apart. -/
theorem resolved_of_mem {m : Module} {f : WasmFile} (hm : Module.ofContext ctx = .ok m)
    (hf : WasmFile.ofContext ctx = .ok f) {c : ExportCall} (hc : c ∈ m.exportCalls) :
    c ∈ [mallocCall, freeCall] ∨ c ∈ [initializeCall, startCall] ∨ Exports f.lines c.symbol := by
  rw [Module.exportCalls, List.mem_append, List.mem_append, List.mem_append] at hc
  rcases hc with ((hc | hc) | hc) | hc
  · exact .inl hc
  · -- the end of a handle is the destructor of its owner, which is an operation like others
    obtain ⟨h, hh, hc⟩ := List.mem_filterMap.mp hc
    obtain ⟨-, hclasses, -⟩ := exists_of_module hm
    rw [hclasses] at hh
    obtain ⟨handle, -, rfl⟩ := List.mem_map.mp hh
    obtain ⟨op, hop, rfl⟩ := exists_operation_of_disposal? hc
    exact .inr (.inr (exports_operation hf hop))
  · exact .inr (.inl hc)
  · -- a wrapper and an export take the symbol from the same operation
    obtain ⟨⟨i, ws⟩, hp, hc⟩ := List.mem_flatMap.mp hc
    obtain ⟨w, hw, rfl⟩ := List.mem_map.mp hc
    obtain ⟨op, -, -, hop, hof⟩ := exists_operation_of_mem hm hp hw
    obtain ⟨-, -, -, hsymbol, -⟩ := exists_parts_of_wrapper hof
    change _ ∨ _ ∨ Exports f.lines w.symbol
    rw [hsymbol]
    exact .inr (.inr (exports_operation hf hop))

/-- **Each constructor and each method has one wrapper**, which calls it and nothing else. -/
theorem wrappers_link {m : Module} (hm : Module.ofContext ctx = .ok m) :
    List.Forall₂ (fun i p => p.1 = i ∧ interfaceLines i p.2 <:+: m.lines ctx ∧
      List.Forall₂ (fun op w => w.exportCall.symbol = op.symbol ctx.apiName ∧
        Shows w.exportCall w.lines ∧ (ctx.Worded → OnlyCalls w.lines (op.symbol ctx.apiName)))
        (i.operations.filter fun op => op.kind ≠ .destructor) p.2)
      ctx.api.interfaces m.interfaces := by
  obtain ⟨-, -, hinterfaces⟩ := exists_of_module hm
  refine (forall₂_imp_of_mem hinterfaces.flip fun p hp i hi => ?_).flip
  obtain ⟨rfl, hws⟩ := hi
  obtain ⟨i, hi, rfl, -⟩ := exists_mem_of_forall₂ hinterfaces.flip hp
  -- An interface has its wrappers side by side with the operations that get one.
  refine ⟨rfl, ?_, forall₂_imp_of_mem hws fun op hop w hw => ?_⟩
  · have hpart := infix_flatMap (f := fun (i, ws) => interfaceLines i ws) hp
    exact hpart.trans (parts_infix_lines ctx m).2.2
  · obtain ⟨-, -, -, hsymbol, -⟩ := exists_parts_of_wrapper hw
    refine ⟨hsymbol, shows_wrapper w, fun named => ?_⟩
    have hquiet := quiet_wrapper named (mem_operations_of_mem hi (List.mem_filter.mp hop).1) hw
    rw [← hsymbol]
    exact onlyCalls_of_callsOnce (callsOnce_lines hquiet) hquiet.call

/-- **The two halves of one description link.** -/
theorem links {m : Module} {f : WasmFile} (hm : Module.ofContext ctx = .ok m)
    (hf : WasmFile.ofContext ctx = .ok f) : Links ctx m f where
  shown := fun c hc => shows_of_mem_exportCalls hc
  resolved := fun c hc => resolved_of_mem hm hf hc
  complete := by
    intro named l hl hremark symbol hcalls
    obtain ⟨c, hc, rfl⟩ := exists_exportCall_of_callsIn named hm hl hremark hcalls
    -- the allocator, the start, or what the library exports
    rcases resolved_of_mem hm hf hc with hc | hc | hc
    · rcases List.mem_pair.mp hc with rfl | rfl <;> exact .inl (by decide)
    · rcases List.mem_pair.mp hc with rfl | rfl <;> exact .inl (by decide)
    · exact .inr hc
  guarded := guards_infix_start.trans (start_infix_lines ctx m)
  exports := by
    refine ⟨_, exports_eq_operations hf, ?_⟩
    rw [Build.wasmExports, List.map_map]
    rfl
  wrappers := wrappers_link hm
  env := env_infix_lines ctx m
  six := ⟨rfl, nodup_keys ctx.apiName⟩
  imports := by
    obtain ⟨himports, -⟩ := exists_of_wasmFile hf
    have hcounts : f.imports.map (fun i => (i.symbol, i.params.length)) =
        hostFunctions.map fun h => (h.key ctx.apiName, h.params.length) := by
      rw [himports, map_hostFunctions]
    refine ⟨?_, ?_, hcounts⟩
    · have hkeys := congrArg (List.map Prod.fst) hcounts
      rw [List.map_map, List.map_map] at hkeys
      rw [imports_eq]
      exact hkeys
    · rw [WasmFile.lines]
      grind

/-- **The web module links.** Whenever both halves are emitted, the module calls only what
the library exports, the start of the module apart, which it calls where it finds it; the
library exports the same symbols to both of its builds; each constructor and each method has
its wrapper; and the host provides what the library imports. -/
theorem web_module_links {ctx : Context} {js go : List Artifact}
    (hjs : JavaScript.emit ctx = .ok js) (hgo : Go.emitWasm ctx = .ok go) :
    ∃ m f, js = [ctx.generatedFile (ctx.apiName ++ ".js") Code.twoBlanks (m.lines ctx)] ∧
      go = [ctx.generatedFile (ctx.apiName ++ "_wasm.go") Code.tab f.lines] ∧ Links ctx m f := by
  obtain ⟨m, hm, hjs⟩ := bind_eq_ok_iff.mp hjs
  obtain ⟨f, hf, hgo⟩ := bind_eq_ok_iff.mp hgo
  obtain rfl := pure_eq_ok_iff.mp hjs
  obtain rfl := pure_eq_ok_iff.mp hgo
  exact ⟨m, f, rfl, rfl, links hm hf⟩

theorem web_module_links_port :
    ∃ js go, JavaScript.emit portContext = .ok js ∧ Go.emitWasm portContext = .ok go ∧
      portContext.Worded ∧ ∃ m f,
        js = [portContext.generatedFile "demo.js" Code.twoBlanks (m.lines portContext)] ∧
        go = [portContext.generatedFile "demo_wasm.go" Code.tab f.lines] ∧
        Links portContext m f := by
  obtain ⟨js, hjs⟩ : ∃ js, JavaScript.emit portContext = .ok js :=
    exists_ok_of_isOk (by decide +kernel)
  obtain ⟨go, hgo⟩ : ∃ go, Go.emitWasm portContext = .ok go :=
    exists_ok_of_isOk (by decide +kernel)
  have named : portContext.Worded :=
    ⟨by decide +kernel, by decide +kernel, by decide +kernel, by decide +kernel, by decide +kernel⟩
  exact ⟨js, go, hjs, hgo, named, web_module_links hjs hgo⟩

/-- A parameter whose name spells out a call, behind the underscore of its pointer. -/
def spelledContext : Context :=
  { portContext with
    api := { portContext.api with
      interfaces := [
        { name := "dock"
          methods := [
            { name := "plug", parameters := [{ name := "wasm.exports.open(", type := "string" }] }]
        }] } }

/-- **Not everything that is called is exported by the library.** The start of the module
comes from the compiler. And a name that is not a word can spell out a call of anything, in
a wrapper too. -/
theorem calls_unexported_port :
    (∃ (m : Module) (f : WasmFile), JavaScript.emit portContext =
        .ok [portContext.generatedFile "demo.js" Code.twoBlanks (m.lines portContext)] ∧
      Go.emitWasm portContext =
        .ok [portContext.generatedFile "demo_wasm.go" Code.tab f.lines] ∧
      ¬ ∀ symbol, (∃ l ∈ m.lines portContext, CallsIn l.text symbol) →
        symbol ∉ ["malloc", "free"] → Exports f.lines symbol) ∧
    ∃ (m : Module) (f : WasmFile), JavaScript.emit spelledContext =
        .ok [spelledContext.generatedFile "demo.js" Code.twoBlanks (m.lines spelledContext)] ∧
      Go.emitWasm spelledContext =
        .ok [spelledContext.generatedFile "demo_wasm.go" Code.tab f.lines] ∧
      (¬ ∀ symbol, (∃ l ∈ m.lines spelledContext, CallsIn l.text symbol) →
        symbol ∉ ["malloc", "free", "_initialize", "_start"] → Exports f.lines symbol) ∧
      ¬ ∀ p ∈ m.interfaces, ∀ w ∈ p.2, OnlyCalls w.lines w.exportCall.symbol := by
  refine ⟨?_, ?_⟩
  · obtain ⟨m, hm⟩ : ∃ m, Module.ofContext portContext = .ok m :=
      exists_ok_of_isOk (by decide +kernel)
    obtain ⟨f, hf⟩ : ∃ f, WasmFile.ofContext portContext = .ok f :=
      exists_ok_of_isOk (by decide +kernel)
    refine ⟨m, f, bind_eq_ok_iff.mpr ⟨m, hm, rfl⟩, bind_eq_ok_iff.mpr ⟨f, hf, rfl⟩, fun hall => ?_⟩
    have hline := (guards_infix_start.trans (start_infix_lines portContext m)).subset
      (List.mem_of_getElem? (i := 1) rfl)
    have hcalls : CallsIn "_wasm.exports._initialize();" "_initialize" :=
      ⟨by decide, "", ");", by decide +kernel⟩
    exact not_exports_of_not_mem hf (by decide +kernel)
      (hall "_initialize" ⟨_, hline, hcalls⟩ (by decide))
  · obtain ⟨m, hm⟩ : ∃ m, Module.ofContext spelledContext = .ok m :=
      exists_ok_of_isOk (by decide +kernel)
    obtain ⟨f, hf⟩ : ∃ f, WasmFile.ofContext spelledContext = .ok f :=
      exists_ok_of_isOk (by decide +kernel)
    -- the wrapper takes room for its parameter, under a name with an underscore in front
    have hcalls : CallsIn "const _wasm.exports.open(Ptr = _encodeString(wasm.exports.open();"
        "open" :=
      ⟨by decide, "const ", "Ptr = _encodeString(wasm.exports.open();", by decide +kernel⟩
    have hwrapper : (Module.ofContext spelledContext).toOption.any (fun m =>
        m.interfaces.any fun p => p.2.any fun w => w.symbol != "open" && w.lines.any fun l =>
          l.text == "const _wasm.exports.open(Ptr = _encodeString(wasm.exports.open();") := by
      decide +kernel
    have hmodule : (Module.ofContext spelledContext).toOption.any (fun m =>
        (m.lines spelledContext).any fun l =>
          l.text == "const _wasm.exports.open(Ptr = _encodeString(wasm.exports.open();") := by
      decide +kernel
    rw [hm] at hwrapper hmodule
    simp only [Except.toOption, Option.any_some, List.any_eq_true, Bool.and_eq_true, bne_iff_ne,
      beq_iff_eq] at hwrapper hmodule
    obtain ⟨p, hp, w, hw, hsymbol, l', hl', htext'⟩ := hwrapper
    obtain ⟨l, hl, htext⟩ := hmodule
    refine ⟨m, f, bind_eq_ok_iff.mpr ⟨m, hm, rfl⟩, bind_eq_ok_iff.mpr ⟨f, hf, rfl⟩, ?_, ?_⟩
    · intro hall
      exact not_exports_of_not_mem hf (by decide +kernel)
        (hall "open" ⟨l, hl, htext ▸ hcalls⟩ (by decide))
    · intro hall
      exact hsymbol ((hall p hp w hw).eq_of_callsIn hl' (htext' ▸ hcalls)).symm

end Wasm

end Bindery
