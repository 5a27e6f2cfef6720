import Bindery.Emit.JavaScript
import Bindery.Proofs.Conformance
import Bindery.Proofs.Names.Description
import Bindery.Proofs.Names.Schema
import Bindery.Proofs.Wasm.Mentions
import Bindery.Proofs.Wasm.Ranges

/-!
# What the module calls of its exports

The calls of exports in a module in JavaScript are values before they are text
(`Module.exportCalls`): the allocator, the end of each handle, the start of the module, and
one call for each wrapper. The text of the module is those calls and no other:

* `shows_of_mem_exportCalls` — each of the calls stands in the module;
* `callsOnce_lines` — a wrapper mentions the exports on one line, in its call;
* `exists_exportCall_of_callsIn` — whatever a line calls is one of the calls.

The last two hold of names that are words (`Context.Worded`), since any other name could
spell out a call by itself. The names of a valid description are (`worded_of_conforms`). What
a description says about a handle is free text and stands in a remark of its own
(`IsRemark`), which calls nothing.

The module is put together from a few dozen pieces. For each of them there is a lemma that
its lines are silent, or that their mentions are accounted for, from the same property of
its parts.
-/

namespace Bindery

/-- **The names of the description and of the fields of its records are words.** -/
structure Context.Worded (ctx : Context) : Prop where
  api : IsWord ctx.apiName
  interfaces : ∀ i ∈ ctx.api.interfaces, IsWord i.name
  operations : ∀ op ∈ ctx.api.operations, IsWord op.method.name ∧
    ∀ p ∈ op.method.parameters, IsWord p.name
  handles : ∀ h ∈ ctx.api.handles, IsWord h.name
  fields : ∀ e ∈ ctx.types.entries, ∀ f ∈ e.2.fields, IsWord f.name

/-- **The names of a valid description are words.** -/
theorem worded_of_conforms {ctx : Context} (valid : Validate.Conforms ctx.api (some ctx.types))
    (snake : ctx.api.SnakeNamed) (named : ctx.types.WellNamed) : ctx.Worded where
  api := (isPlain_of_isSnakeIdentifier snake.name).isWord
  interfaces i hi := (isPlain_of_isSnakeIdentifier (snake.interfaces i hi).name).isWord
  operations op hop := by
    obtain ⟨i, hi, hop⟩ := List.mem_flatMap.mp hop
    have hplain := plainNamed_of_mem_operations (snake.interfaces i hi) hop
    exact ⟨hplain.name.isWord, fun p hp => (hplain.parameters p hp).isWord⟩
  handles h hh := isWord_of_isPascalIdentifier (valid.handlesPascal h hh)
  fields e he f hf := ((named e he).type.fields f hf).name.isWord

namespace JavaScript

/-! ### Records -/

theorem isWord_identifier {s : String} (h : IsWord s) : IsWord (identifier s) := by
  unfold identifier
  dsimp only
  split
  · exact h.camelCase.append (IsPlain.isWord (by decide))
  · exact h.camelCase

theorem silent_dataView (p : Primitive) : Silent p.row.dataView := by
  cases p <;> exact silent_ofList _ rfl

theorem silent_addressAt {base : String} (h : Silent base) (offset : Nat) :
    Silent (addressAt base offset) := by
  rw [addressAt]
  split
  · exact h
  · exact (h.append (silent_ofList _ rfl)).append (silent_of_isWord (isWord_toString offset))

theorem Cell.silent_read {addr : String} (h : Silent addr) (c : Cell) : Silent (c.read addr) := by
  cases c with
  | scalar p =>
    have hview := silent_dataView p
    cases p
    -- The reading of a scalar depends on its width and sign; in each case what is added is fixed
    -- text.
    all_goals
      delta Cell.read
      dsimp only
      with_reducible repeat' first | assumption | apply Silent.append | exact silent_ofList _ rfl
  | text =>
    delta Cell.read
    dsimp only
    with_reducible repeat' first | assumption | apply Silent.append | exact silent_ofList _ rfl
  | record q =>
    have hflat := silent_flatTypeName q
    delta Cell.read
    dsimp only
    with_reducible repeat' first | assumption | apply Silent.append | exact silent_ofList _ rfl

theorem Cell.silent_write {addr value : String} (haddr : Silent addr) (hvalue : Silent value)
    (c : Cell) : Silent (c.write addr value) := by
  cases c with
  | scalar p =>
    have hview := silent_dataView p
    -- As for the reading.
    cases p
    all_goals
      delta Cell.write
      dsimp only
      with_reducible repeat' first | assumption | apply Silent.append | exact silent_ofList _ rfl
  | text =>
    delta Cell.write
    dsimp only
    with_reducible repeat' first | assumption | apply Silent.append | exact silent_ofList _ rfl
  | record q =>
    have hflat := silent_flatTypeName q
    delta Cell.write
    dsimp only
    with_reducible repeat' first | assumption | apply Silent.append | exact silent_ofList _ rfl

/-- Reading the field of an object. -/
theorem silent_readText {a : Access} (h : IsWord (Wasm.javaScriptField a)) : Silent a.readText := by
  have hptr : Silent "ptr" := silent_ofList _ rfl
  -- A plain field is one access, and a vector is a loop over its elements.
  cases a with
  | plain f offset cell =>
    have hkey : Silent (identifier f) := silent_of_isWord (isWord_identifier h)
    have hread := cell.silent_read (silent_addressAt hptr offset)
    rw [Access.readText]
    with_reducible repeat' first | assumption | apply Silent.append | exact silent_ofList _ rfl
  | vector f offset count stride element =>
    have hkey : Silent (identifier f) := silent_of_isWord (isWord_identifier h)
    have hdata := silent_addressAt hptr offset
    have hcount := silent_addressAt hptr count
    have hstride := silent_of_isWord (isWord_toString stride)
    have hread := element.silent_read (silent_ofList ['p'] rfl)
    rw [Access.readText]
    with_reducible repeat' first | assumption | apply Silent.append | exact silent_ofList _ rfl

/-- Writing the field of an object. -/
theorem silent_writeText {a : Access} (h : IsWord (Wasm.javaScriptField a)) :
    ∀ text ∈ a.writeText, Silent text := by
  have hptr : Silent "ptr" := silent_ofList _ rfl
  have hvalue : Silent "value." := silent_ofList _ rfl
  cases a with
  | plain f offset cell =>
    have hkey : Silent (identifier f) := silent_of_isWord (isWord_identifier h)
    rw [Access.writeText, List.forall_mem_singleton]
    exact cell.silent_write (silent_addressAt hptr offset) (hvalue.append hkey)
  | vector f offset count stride element =>
    have hkey : Silent (identifier f) := silent_of_isWord (isWord_identifier h)
    have hdata := silent_addressAt hptr offset
    have hcount := silent_addressAt hptr count
    have hstride := silent_of_isWord (isWord_toString stride)
    have hp : Silent "p" := silent_ofList _ rfl
    have hitem : Silent "item" := silent_ofList _ rfl
    have hwrite := element.silent_write hp hitem
    rw [Access.writeText, List.forall_mem_cons, List.forall_mem_singleton]
    refine ⟨?_, ?_⟩
    all_goals
      with_reducible repeat' first | assumption | apply Silent.append | exact silent_ofList _ rfl

theorem silent_codec {c : Codec} (h : ∀ a ∈ c.accesses, IsWord (Wasm.javaScriptField a)) :
    Code.Each Silent c.lines := by
  have hflat := silent_flatTypeName c.record
  have hread : ∀ a ∈ c.accesses, Silent a.readText := fun a ha => silent_readText (h a ha)
  have hwrite : ∀ a ∈ c.accesses, ∀ text ∈ a.writeText, Silent text :=
    fun a ha => silent_writeText (h a ha)
  simp only [Codec.lines, Code.each_append, Code.each_block, Code.each_blockWith, Code.each_lines,
    Code.each_cons, Code.each_nil, Line.text_blank, List.forall_mem_map, List.forall_mem_flatMap]
  with_reducible repeat' first
    | assumption | apply And.intro | apply Silent.append | exact silent_ofList _ rfl | trivial

/-- **The codecs mention no exports.** -/
theorem silent_codecLines {ctx : Context} (named : ctx.Worded) {codecs : List Codec}
    (h : Codec.all ctx.types = .ok codecs) : Code.Each Silent (codecLines codecs) := by
  have hfield : ∀ c ∈ codecs, ∀ a ∈ c.accesses, IsWord (Wasm.javaScriptField a) := by
    intro c hc a ha
    obtain ⟨l, d, -, hd, f, hf, hof⟩ := Wasm.exists_field_of_javaScript h hc ha
    obtain ⟨hfound, -⟩ := Wasm.found_of_javaScript hof
    -- The name that the codec prints is that of the field.
    have hname : Wasm.javaScriptField a = f.name := by
      cases a <;> cases hfound <;> rfl
    rw [hname]
    exact named.fields _ (Keyed.get?_eq_some_iff.mp hd) f hf
  rw [codecLines]
  split
  · exact Code.each_nil
  · rw [List.singleton_append, Code.each_cons, Code.each_flatMap]
    exact ⟨Silent.append (silent_ofList _ rfl) (silent_ofList _ rfl),
      fun c hc => silent_codec (hfield c hc)⟩

/-! ### Fixed parts -/

theorem silent_systemInterface : Code.Each Silent systemInterface := by
  rw [systemInterface, Code.each_lines]
  simp only [List.forall_mem_cons]
  with_reducible repeat' first
    | apply And.intro | exact silent_ofList _ rfl | exact List.forall_mem_nil _

theorem plain_mallocCall : mallocCall.Plain where
  symbol := IsPlain.isWord (by decide)
  args := List.forall_mem_singleton.mpr (silent_ofList _ rfl)

theorem plain_freeCall : freeCall.Plain where
  symbol := IsPlain.isWord (by decide)
  args := List.forall_mem_singleton.mpr (silent_ofList _ rfl)

/-- **The helpers for memory** call the allocator. -/
theorem accounted_memoryHelpers :
    Code.Each (Accounted [mallocCall, freeCall]) memoryHelpers := by
  have hmalloc : Accounted [mallocCall, freeCall] ("  return " ++ mallocCall.text ++ ";") :=
    .call _ _ (by simp) plain_mallocCall (silent_ofList _ rfl) (silent_ofList _ rfl)
  have hfree : Accounted [mallocCall, freeCall] ("  " ++ freeCall.text ++ ";") :=
    .call _ _ (by simp) plain_freeCall (silent_ofList _ rfl) (silent_ofList _ rfl)
  -- the memory is an export too, and no function
  have hmemory : Accounted [mallocCall, freeCall] "  return _wasm.exports.memory.buffer;" :=
    .noCall "  return " "memory.buffer;" (silent_ofList _ rfl) (silent_ofList _ rfl) (by decide)
  rw [memoryHelpers, Code.each_lines]
  simp only [List.forall_mem_cons]
  with_reducible repeat' first
    | assumption | apply And.intro | exact .silent (silent_ofList _ rfl)
    | exact List.forall_mem_nil _

/-! ### Handles -/

/-- The text is the remark in front of a class. -/
def IsRemark (h : Handle) (text : String) : Prop :=
  ∃ d, h.description = some d ∧ text = "/** " ++ d ++ " */"

/-- **The class of a handle** calls the destructor, if there is one. -/
theorem accounted_handleClass {c : HandleClass} (hname : IsWord c.handle.name)
    (hplain : ∀ call ∈ c.disposal?, call.Plain) :
    Code.Each (fun text => Accounted c.disposal?.toList text ∨ IsRemark c.handle text) c.lines := by
  have hclass := silent_of_isWord hname
  have hremark : ∀ d ∈ c.handle.description.toList,
      Accounted c.disposal?.toList ("/** " ++ d ++ " */") ∨
        IsRemark c.handle ("/** " ++ d ++ " */") :=
    fun d hd => .inr ⟨d, Option.mem_toList.mp hd, rfl⟩
  have hcall : ∀ call ∈ c.disposal?.toList,
      Accounted c.disposal?.toList (call.text ++ ";") ∨ IsRemark c.handle (call.text ++ ";") := by
    intro call hmem
    have h := Accounted.call "" ";" hmem
      (hplain call (Option.mem_toList.mp hmem)) (silent_ofList _ rfl) (silent_ofList _ rfl)
    rw [String.empty_append] at h
    exact .inl h
  -- A line of the class is a remark, the call at the end, or fixed text around the name of the
  -- handle.
  simp only [HandleClass.lines, Code.each_append, Code.each_block, Code.each_lines, Code.each_cons,
    Code.each_nil, Line.text_blank, List.forall_mem_map, List.forall_mem_cons]
  with_reducible repeat' first
    | assumption | apply And.intro | exact List.forall_mem_nil _ | trivial
    | refine .inl (.silent ?_) | apply Silent.append | exact silent_ofList _ rfl

/-! ### What the host provides -/

/-- The parts of a host function say nothing about exports. -/
structure HostFunction.Quiet (f : HostFunction) : Prop where
  service : Silent f.service
  params : ∀ p ∈ f.params, Silent p
  body : f.body.elim (Code.Each Silent) Silent

theorem quiet_of_mem_hostFunctions : ∀ f ∈ hostFunctions, f.Quiet := by
  simp only [hostFunctions, List.forall_mem_cons]
  refine ⟨⟨?_, ?_, ?_⟩, ⟨?_, ?_, ?_⟩, ⟨?_, ?_, ?_⟩, ⟨?_, ?_, ?_⟩, ⟨?_, ?_, ?_⟩, ⟨?_, ?_, ?_⟩,
    List.forall_mem_nil _⟩
  all_goals
    simp only [Sum.elim_inl, Sum.elim_inr, Code.each_block, Code.each_lines, List.forall_mem_cons]
    with_reducible repeat' first
      | apply And.intro | exact silent_ofList _ rfl | exact List.forall_mem_nil _
      | apply Silent.append

theorem silent_hostFunction {api : String} (hapi : IsWord api) {f : HostFunction}
    (hf : f.Quiet) : Code.Each Silent (f.lines api) := by
  obtain ⟨hservice, hparams, hbody⟩ := hf
  have hname := silent_of_isWord hapi
  have hlist := silent_commaSep hparams
  rw [HostFunction.lines, HostFunction.key, Naming.serviceSymbol]
  -- The function of the host has a body of lines, or it is a single expression.
  cases hf : f.body with
  | inl body =>
    rw [hf] at hbody
    rw [Code.each_blockWith]
    refine ⟨?_, hbody, silent_ofList _ rfl⟩
    with_reducible repeat' first | assumption | apply Silent.append | exact silent_ofList _ rfl
  | inr expression =>
    rw [hf, Sum.elim_inr] at hbody
    rw [Code.each_lines, List.forall_mem_singleton]
    with_reducible repeat' first | assumption | apply Silent.append | exact silent_ofList _ rfl

/-- **What the host provides** calls no exports. -/
theorem silent_importLines {api : String} (hapi : IsWord api) :
    Code.Each Silent (importLines api) := by
  have hfunctions : ∀ f ∈ hostFunctions, Code.Each Silent (f.lines api) :=
    fun f hf => silent_hostFunction hapi (quiet_of_mem_hostFunctions f hf)
  simp only [importLines, Code.each_append, Code.each_block, Code.each_blockWith, Code.each_lines,
    Code.each_cons, Code.each_nil, Code.text_comment, Line.text_blank, Code.each_flatMap,
    List.forall_mem_cons]
  with_reducible repeat' first
    | assumption | apply And.intro | exact List.forall_mem_nil _ | trivial
    | apply Silent.append | exact silent_ofList _ rfl

/-! ### The loader -/

theorem isWord_loaderName {api : String} (hapi : IsWord api) : IsWord (loaderName api) := by
  have hverb : IsWord "load_" := IsPlain.isWord (by decide)
  exact (hverb.append hapi).camelCase

theorem plain_initializeCall : initializeCall.Plain where
  symbol := IsPlain.isWord (by decide)
  args := List.forall_mem_nil _

theorem plain_startCall : startCall.Plain where
  symbol := IsPlain.isWord (by decide)
  args := List.forall_mem_nil _

/-- **The start of the module** calls an export that is there. -/
theorem accounted_startLines : Code.Each (Accounted [initializeCall, startCall]) startLines := by
  have hreactor : Accounted [initializeCall, startCall] (initializeCall.text ++ ";") :=
    .call "" ";" (by simp) plain_initializeCall (silent_ofList _ rfl) (silent_ofList _ rfl)
  have hstart : Accounted [initializeCall, startCall] (startCall.text ++ ";") :=
    .call "" ";" (by simp) plain_startCall (silent_ofList _ rfl) (silent_ofList _ rfl)
  -- the tests name the exports without calling them
  have hifReactor : Accounted [initializeCall, startCall]
      ("if (" ++ initializeCall.function ++ ")" ++ " \x7b") :=
    .noCall "if (" "_initialize) \x7b" (silent_ofList _ rfl) (silent_ofList _ rfl) (by decide)
  have hifCommand : Accounted [initializeCall, startCall]
      ("\x7d else if (" ++ startCall.function ++ ") \x7b") :=
    .noCall "\x7d else if (" "_start) \x7b" (silent_ofList _ rfl) (silent_ofList _ rfl) (by decide)
  simp only [startLines, Code.each_append, Code.each_blockWith, Code.each_lines, Code.each_cons,
    Code.each_nil, Code.text_comment, Code.each_indent, List.forall_mem_cons]
  with_reducible repeat' first
    | assumption | apply And.intro | exact List.forall_mem_nil _ | trivial
    | apply Accounted.silent | apply Silent.append | exact silent_ofList _ rfl

/-- **The loader** starts the module. -/
theorem accounted_loaderLines {ctx : Context} (named : ctx.Worded) :
    Code.Each (Accounted [initializeCall, startCall]) (loaderLines ctx) := by
  have hloader := silent_of_isWord (isWord_loaderName named.api)
  have hstart := accounted_startLines
  have hentry : ∀ i ∈ ctx.api.interfaces, Accounted [initializeCall, startCall]
      (identifier i.name ++ ": _create" ++ Naming.pascalCase i.name ++ "(),") := by
    intro i hi
    have hkey := silent_of_isWord (isWord_identifier (named.interfaces i hi))
    have hcreate := silent_of_isWord (named.interfaces i hi).pascalCase
    apply Accounted.silent
    with_reducible repeat' first | assumption | apply Silent.append | exact silent_ofList _ rfl
  simp only [loaderLines, Code.each_append, Code.each_block, Code.each_blockWith, Code.each_lines,
    Code.each_cons, Code.each_nil, Code.text_comment, Line.text_blank, Code.each_indent,
    List.forall_mem_cons, List.forall_mem_map]
  with_reducible repeat' first
    | assumption | apply And.intro | exact List.forall_mem_nil _ | trivial
    | apply Accounted.silent | apply Silent.append | exact silent_ofList _ rfl

/-! ### Wrappers -/

/-- What a parameter takes says nothing about exports. -/
structure Marshalled.Quiet (part : Marshalled) : Prop where
  setup : ∀ step ∈ part.setup, Silent step.text
  args : ∀ a ∈ part.args, Silent a.text
  frees : ∀ f ∈ part.frees, Silent f
  writeBacks : ∀ b ∈ part.writeBacks, Silent b.text

theorem isWord_ptrName {p : Parameter} (h : IsWord p.name) : IsWord (ptrName p) := by
  have hfront : IsWord "_" := IsPlain.isWord (by decide)
  have hbehind : IsWord "Ptr" := IsPlain.isWord (by decide)
  exact (hfront.append h.camelCase).append hbehind

theorem isWord_lenName {p : Parameter} (h : IsWord p.name) : IsWord (lenName p) := by
  have hfront : IsWord "_" := IsPlain.isWord (by decide)
  have hbehind : IsWord "Len" := IsPlain.isWord (by decide)
  exact (hfront.append h.camelCase).append hbehind

theorem silent_encode {ptr value : String} (hptr : Silent ptr) (hvalue : Silent value) :
    Silent (Setup.encode ptr value).text := by
  delta Setup.text
  dsimp only
  with_reducible repeat' first | assumption | apply Silent.append | exact silent_ofList _ rfl

theorem silent_copyBuffer {ptr len value : String} (hptr : Silent ptr) (hlen : Silent len)
    (hvalue : Silent value) : Silent (Setup.copyBuffer ptr len value).text := by
  delta Setup.text
  dsimp only
  with_reducible repeat' first | assumption | apply Silent.append | exact silent_ofList _ rfl

theorem silent_reserve {ptr : String} (hptr : Silent ptr) (size : Nat) :
    Silent (Setup.reserve ptr size).text := by
  have hsize := silent_of_isWord (isWord_toString size)
  delta Setup.text
  dsimp only
  with_reducible repeat' first | assumption | apply Silent.append | exact silent_ofList _ rfl

theorem WriteBack.silent_text {b : WriteBack} (h : match b with
    | .buffer ptr value => Silent ptr ∧ Silent value
    | .record _ ptr value => Silent ptr ∧ Silent value) : Silent b.text := by
  -- Both kinds write a value back to a pointer, and neither calls an export.
  cases b with
  | buffer ptr value =>
    obtain ⟨hptr, hvalue⟩ := h
    delta WriteBack.text
    dsimp only
    with_reducible repeat' first | assumption | apply Silent.append | exact silent_ofList _ rfl
  | record name ptr value =>
    obtain ⟨hptr, hvalue⟩ := h
    have hflat := silent_flatTypeName name
    delta WriteBack.text
    dsimp only
    with_reducible repeat' first | assumption | apply Silent.append | exact silent_ofList _ rfl

variable {ctx : Context}

/-- A schema type is passed without mentioning exports. -/
theorem quiet_marshalSchema {p : Parameter} (hp : IsWord p.name) {q : String} {part : Marshalled}
    (h : marshalSchema ctx p q = .ok part) : part.Quiet := by
  have hname := silent_of_isWord (isWord_identifier hp)
  have hptr := silent_of_isWord (isWord_ptrName hp)
  rw [marshalSchema] at h
  split at h
  · cases h
  · split at h
    · -- an enumeration by value is passed as it is
      obtain rfl := Except.ok.inj h
      exact ⟨List.forall_mem_nil _, List.forall_mem_singleton.mpr hname, List.forall_mem_nil _,
        List.forall_mem_nil _⟩
    · obtain ⟨size, -, hpart⟩ := bind_eq_ok_iff.mp h
      obtain rfl := pure_eq_ok_iff.mp hpart
      refine ⟨?_, List.forall_mem_singleton.mpr hptr, List.forall_mem_singleton.mpr hptr, ?_⟩
      · rw [List.forall_mem_cons, List.forall_mem_singleton]
        exact ⟨silent_reserve hptr size, Cell.silent_write hptr hname _⟩
      · -- only a record that may be written is copied back
        dsimp only
        split
        · exact List.forall_mem_singleton.mpr (WriteBack.silent_text ⟨hptr, hname⟩)
        · exact List.forall_mem_nil _

/-- **A parameter is passed without mentioning exports.** -/
theorem quiet_marshal {p : Parameter} (hp : IsWord p.name) {part : Marshalled}
    (h : marshal ctx p = .ok part) : part.Quiet := by
  have hname := silent_of_isWord (isWord_identifier hp)
  have hptr := silent_of_isWord (isWord_ptrName hp)
  have hlen := silent_of_isWord (isWord_lenName hp)
  obtain ⟨t, -, h⟩ := bind_eq_ok_iff.mp h
  cases t with
  | string =>
    obtain rfl := pure_eq_ok_iff.mp h
    exact ⟨List.forall_mem_singleton.mpr (silent_encode hptr hname),
      List.forall_mem_singleton.mpr hptr, List.forall_mem_singleton.mpr hptr,
      List.forall_mem_nil _⟩
  | buffer element =>
    obtain rfl := pure_eq_ok_iff.mp h
    refine ⟨List.forall_mem_singleton.mpr (silent_copyBuffer hptr hlen hname),
      List.forall_mem_cons.mpr ⟨hptr, List.forall_mem_singleton.mpr hlen⟩,
      List.forall_mem_singleton.mpr hptr, ?_⟩
    dsimp only
    split
    · exact List.forall_mem_singleton.mpr (WriteBack.silent_text ⟨hptr, hname⟩)
    · exact List.forall_mem_nil _
  | handle _ =>
    obtain rfl := pure_eq_ok_iff.mp h
    exact ⟨List.forall_mem_nil _,
      List.forall_mem_singleton.mpr (hname.append (silent_ofList _ rfl)), List.forall_mem_nil _,
      List.forall_mem_nil _⟩
  | primitive q =>
    -- a truth value is passed as a number
    cases q with
    | bool =>
      obtain rfl := pure_eq_ok_iff.mp h
      exact ⟨List.forall_mem_nil _,
        List.forall_mem_singleton.mpr (hname.append (silent_ofList _ rfl)), List.forall_mem_nil _,
        List.forall_mem_nil _⟩
    | _ =>
      obtain rfl := pure_eq_ok_iff.mp h
      exact ⟨List.forall_mem_nil _, List.forall_mem_singleton.mpr hname, List.forall_mem_nil _,
        List.forall_mem_nil _⟩
  | qualified q => exact quiet_marshalSchema hp h

/-- A handle is named by a word. -/
theorem silent_of_classify {ty handle : String} (h : Abi.classify ty = .ok (.handle handle)) :
    Silent handle :=
  silent_of_isWord
    (isWord_of_isPascalIdentifier (TypeRef.text_of_ofString? (classify_eq_ok_iff.mp h)).2)

/-- What is read of a result says nothing about exports. -/
theorem silent_readResult {ty result : String} (h : readResult ctx ty = .ok result) :
    Silent result := by
  have hout : Silent outPtr := silent_ofList _ rfl
  obtain ⟨t, ht, h⟩ := bind_eq_ok_iff.mp h
  cases t with
  | string | buffer _ => exact absurd h throw_ne_ok
  | handle handle =>
    have hhandle := silent_of_classify ht
    obtain rfl := pure_eq_ok_iff.mp h
    with_reducible repeat' first | assumption | apply Silent.append | exact silent_ofList _ rfl
  | primitive p =>
    obtain rfl := pure_eq_ok_iff.mp h
    exact (Cell.scalar p).silent_read hout
  | qualified q =>
    dsimp only at h
    split at h
    · next cell _ =>
      obtain rfl := pure_eq_ok_iff.mp h
      exact cell.silent_read hout
    · exact absurd h throw_ne_ok

theorem silent_convertResult {ty result : String} (h : convertResult ty = .ok result) :
    Silent result := by
  obtain ⟨t, ht, h⟩ := bind_eq_ok_iff.mp h
  cases t with
  | handle handle =>
    have hhandle := silent_of_classify ht
    obtain rfl := pure_eq_ok_iff.mp h
    with_reducible repeat' first | assumption | apply Silent.append | exact silent_ofList _ rfl
  | primitive p =>
    cases p
    all_goals
      obtain rfl := pure_eq_ok_iff.mp h
      exact silent_ofList _ rfl
  | string | buffer _ | qualified _ =>
    obtain rfl := pure_eq_ok_iff.mp h
    exact silent_ofList _ rfl

/-- The expression of what is done with the call. -/
def Outcome.expression? : Outcome → Option String
  | done | status => none
  | statusThen result | stored result | direct result => some result

theorem silent_outcome {m : Method} {outcome : Outcome} (h : outcomeOf ctx m = .ok outcome) :
    ∀ result ∈ outcome.expression?, Silent result := by
  rw [outcomeOf] at h
  -- By error and result; the expression is read from memory or converted from the answer.
  cases herror : m.error <;> cases hreturns : m.returns <;>
    simp only [herror, hreturns] at h
  · obtain rfl := Except.ok.inj h
    intro _ hmem
    cases hmem
  · split at h
    · obtain ⟨result, hresult, rfl⟩ := map_eq_ok_iff.mp h
      intro _ hmem
      obtain rfl := Option.some.inj hmem
      exact silent_readResult hresult
    · obtain ⟨result, hresult, rfl⟩ := map_eq_ok_iff.mp h
      intro _ hmem
      obtain rfl := Option.some.inj hmem
      exact silent_convertResult hresult
  · obtain rfl := Except.ok.inj h
    intro _ hmem
    cases hmem
  · obtain ⟨result, hresult, rfl⟩ := map_eq_ok_iff.mp h
    intro _ hmem
    obtain rfl := Option.some.inj hmem
    exact silent_readResult hresult

/-- **One line makes the call**, and no other line mentions the exports. -/
def CallsOnce (c : ExportCall) (ls : List Line) : Prop :=
  ∃ pre depth before behind post,
    ls = pre ++ { depth := depth, text := before ++ c.text ++ behind } :: post ∧
      Code.Each Silent pre ∧ Silent before ∧ Silent behind ∧ Code.Each Silent post

namespace CallsOnce

variable {c : ExportCall} {ls : List Line}

theorem append_left (h : CallsOnce c ls) {front : List Line} (hfront : Code.Each Silent front) :
    CallsOnce c (front ++ ls) := by
  obtain ⟨pre, depth, before, behind, post, rfl, hpre, htexts⟩ := h
  refine ⟨front ++ pre, depth, before, behind, post, ?_, ?_, htexts⟩
  · rw [List.append_assoc]
  · exact Code.each_append.mpr ⟨hfront, hpre⟩

theorem append_right (h : CallsOnce c ls) {back : List Line} (hback : Code.Each Silent back) :
    CallsOnce c (ls ++ back) := by
  obtain ⟨pre, depth, before, behind, post, rfl, hpre, hbefore, hbehind, hpost⟩ := h
  refine ⟨pre, depth, before, behind, post ++ back, ?_, hpre, hbefore, hbehind, ?_⟩
  · rw [List.append_assoc, List.cons_append]
  · exact Code.each_append.mpr ⟨hpost, hback⟩

theorem indent (h : CallsOnce c ls) : CallsOnce c (Code.indent ls) := by
  obtain ⟨pre, depth, before, behind, post, rfl, hpre, hbefore, hbehind, hpost⟩ := h
  refine ⟨Code.indent pre, depth + 1, before, behind, Code.indent post, ?_, ?_, hbefore, hbehind,
    ?_⟩
  · simp [Code.indent]
  · exact Code.each_indent.mpr hpre
  · exact Code.each_indent.mpr hpost

theorem blockWith (h : CallsOnce c ls) {header close : String} (hheader : Silent header)
    (hclose : Silent close) : CallsOnce c (Code.blockWith header close ls) := by
  have hfirst : Code.Each Silent [{ text := header ++ " \x7b" }] :=
    List.forall_mem_singleton.mpr (hheader.append (silent_ofList _ rfl))
  have hlast : Code.Each Silent [{ text := close }] := List.forall_mem_singleton.mpr hclose
  exact (h.indent.append_left hfirst).append_right hlast

theorem line (before behind : String) (hbefore : Silent before) (hbehind : Silent behind) :
    CallsOnce c (Code.lines [before ++ c.text ++ behind]) :=
  ⟨[], 0, before, behind, [], rfl, Code.each_nil, hbefore, hbehind, Code.each_nil⟩

/-- The mentions in these lines are accounted for. -/
theorem accounted (h : CallsOnce c ls) (plain : c.Plain) : Code.Each (Accounted [c]) ls := by
  obtain ⟨pre, depth, before, behind, post, rfl, hpre, hbefore, hbehind, hpost⟩ := h
  rw [Code.each_append, Code.each_cons]
  refine ⟨hpre.imp fun _ => .silent, ?_, hpost.imp fun _ => .silent⟩
  exact .call before behind (List.mem_singleton_self c) plain hbefore hbehind

end CallsOnce

/-- The parts of a wrapper, the path of the call apart, say nothing about exports. -/
structure Wrapper.Quiet (w : Wrapper) : Prop where
  name : Silent w.name
  params : ∀ p ∈ w.params, Silent p
  setup : ∀ step ∈ w.setup, Silent step.text
  call : w.exportCall.Plain
  writeBacks : ∀ b ∈ w.writeBacks, Silent b.text
  outcome : ∀ result ∈ w.outcome.expression?, Silent result
  frees : ∀ f ∈ w.frees, Silent f

/-- The call and the check of its status. -/
theorem callsOnce_statusLines {w : Wrapper} (quiet : w.Quiet) :
    CallsOnce w.exportCall w.statusLines := by
  have hname := quiet.name
  have hcall : CallsOnce w.exportCall (Code.lines ["const _rc = " ++ w.exportCall.text ++ ";"]) :=
    .line _ _ (silent_ofList _ rfl) (silent_ofList _ rfl)
  refine hcall.append_right ?_
  rw [Code.each_block, Code.each_lines, List.forall_mem_singleton]
  refine ⟨?_, ?_, silent_ofList _ rfl⟩
  all_goals
    with_reducible repeat' first | assumption | apply Silent.append | exact silent_ofList _ rfl

/-- The call and what follows it. -/
theorem callsOnce_callLines {w : Wrapper} (quiet : w.Quiet) :
    CallsOnce w.exportCall w.callLines := by
  -- what stands around the call is silent
  have hback : Code.Each Silent (Code.lines (w.writeBacks.map WriteBack.text)) :=
    Code.each_lines.mpr (List.forall_mem_map.mpr quiet.writeBacks)
  have hanswer : ∀ result ∈ w.outcome.expression?,
      Code.Each Silent (Code.lines ["return " ++ result ++ ";"]) := by
    intro result hmem
    have hresult := quiet.outcome result hmem
    rw [Code.each_lines, List.forall_mem_singleton]
    with_reducible repeat' first | assumption | apply Silent.append | exact silent_ofList _ rfl
  have hstatus := (callsOnce_statusLines quiet).append_right hback
  have halone : CallsOnce w.exportCall (Code.lines [w.call ++ ";"]) := by
    have h : CallsOnce w.exportCall (Code.lines ["" ++ w.exportCall.text ++ ";"]) :=
      .line "" ";" (silent_ofList _ rfl) (silent_ofList _ rfl)
    rwa [String.empty_append] at h
  rw [Wrapper.callLines]
  -- the call is a statement, or it is tested for its status, or its result is bound
  cases houtcome : w.outcome with
  | done => exact halone.append_right hback
  | status => exact hstatus
  | statusThen result => exact hstatus.append_right (hanswer result (by rw [houtcome]; rfl))
  | stored result =>
    exact (halone.append_right hback).append_right (hanswer result (by rw [houtcome]; rfl))
  | direct result =>
    have hbound : CallsOnce w.exportCall
        (Code.lines ["const _result = " ++ w.exportCall.text ++ ";"]) :=
      .line _ _ (silent_ofList _ rfl) (silent_ofList _ rfl)
    exact (hbound.append_right hback).append_right (hanswer result (by rw [houtcome]; rfl))

theorem silent_freeLines {w : Wrapper} (quiet : w.Quiet) : Code.Each Silent w.freeLines := by
  rw [Wrapper.freeLines, Code.each_append]
  refine ⟨?_, ?_⟩
  · rw [Code.each_lines, List.forall_mem_map]
    intro f hf
    have hfree := quiet.frees f hf
    with_reducible repeat' first | assumption | apply Silent.append | exact silent_ofList _ rfl
  · split
    · exact Code.each_lines.mpr (List.forall_mem_singleton.mpr (silent_ofList _ rfl))
    · exact Code.each_nil

/-- **A wrapper makes one call**, of the function that it is made for. -/
theorem callsOnce_lines {w : Wrapper} (quiet : w.Quiet) : CallsOnce w.exportCall w.lines := by
  have hcall := callsOnce_callLines quiet
  have hbody : CallsOnce w.exportCall w.body := by
    rw [Wrapper.body]
    split
    · -- with arrangements the call stands after `try`, and no line around it calls
      have hsetup : Code.Each Silent (Code.lines (w.setup.map Setup.text)) :=
        Code.each_lines.mpr (List.forall_mem_map.mpr quiet.setup)
      have hfrees := Code.each_indent.mpr (silent_freeLines quiet)
      have hline {text : String} (h : Silent text) : Code.Each Silent (Code.lines [text]) :=
        Code.each_lines.mpr (List.forall_mem_singleton.mpr h)
      have htry : Code.Each Silent (Code.lines ["try \x7b"]) := hline (silent_ofList _ rfl)
      have hfinally : Code.Each Silent (Code.lines ["\x7d finally \x7b"]) :=
        hline (silent_ofList _ rfl)
      have hclose : Code.Each Silent (Code.lines ["\x7d"]) := hline (silent_ofList _ rfl)
      have hopened := hcall.indent.append_left (Code.each_append.mpr ⟨hsetup, htry⟩)
      exact ((hopened.append_right hfinally).append_right hfrees).append_right hclose
    · exact hcall
  refine hbody.blockWith ?_ (silent_ofList _ rfl)
  have hname := quiet.name
  have hparams := silent_commaSep quiet.params
  with_reducible repeat' first | assumption | apply Silent.append | exact silent_ofList _ rfl

theorem isWord_symbol (named : ctx.Worded) {op : Operation} (hop : op ∈ ctx.api.operations) :
    IsWord (op.symbol ctx.apiName) := by
  have hunderscore : IsWord "_" := IsPlain.isWord (by decide)
  have hinterface : op.interface ∈ ctx.api.interfaces := by
    obtain ⟨i, hi, hop⟩ := List.mem_flatMap.mp hop
    rcases mem_operations_iff.mp hop with ⟨c, -, rfl⟩ | ⟨handle, -, rfl⟩ | ⟨m, -, rfl⟩ <;> exact hi
  exact (((named.api.append hunderscore).append (named.interfaces _ hinterface)).append
    hunderscore).append (named.operations op hop).1

/-- **The wrapper of an operation** mentions the exports in its call only. -/
theorem quiet_wrapper (named : ctx.Worded) {op : Operation} (hop : op ∈ ctx.api.operations)
    {w : Wrapper} (h : Wrapper.ofOperation ctx op = .ok w) : w.Quiet := by
  obtain ⟨hname, hparams⟩ := named.operations op hop
  obtain ⟨parts, size?, steps⟩ := Wasm.exists_steps_of_wrapper h
  -- a parameter is marshalled under a word
  have hquiet : ∀ part ∈ parts, part.Quiet := by
    intro part hpart
    obtain ⟨p, hp, hmarshal⟩ := exists_mem_of_forall₂ steps.parts.flip hpart
    exact quiet_marshal (hparams p hp) hmarshal
  have hout : Silent outPtr := silent_ofList _ rfl
  have hresult (room : Option ResultPlace) (place : ResultPlace) :
      ∀ a ∈ Wasm.resultAt room place, Silent a.text := by
    unfold Wasm.resultAt
    split
    · exact List.forall_mem_singleton.mpr hout
    · exact List.forall_mem_nil _
  -- the parts of the wrapper, one after the other
  refine ⟨?_, ?_, ?_, ⟨?_, ?_⟩, ?_, silent_outcome steps.outcome, ?_⟩
  · rw [steps.name]
    exact silent_of_isWord hname.camelCase
  · rw [steps.params, List.forall_mem_map]
    exact fun p hmem => silent_of_isWord (isWord_identifier (hparams p hmem))
  · rw [steps.setup, List.forall_mem_append, List.forall_mem_append, List.forall_mem_flatMap]
    refine ⟨⟨?_, fun part hpart => (hquiet part hpart).setup⟩, ?_⟩
    · split
      · exact List.forall_mem_singleton.mpr (silent_ofList _ rfl)
      · exact List.forall_mem_nil _
    · cases size? with
      | none => exact List.forall_mem_nil _
      | some size => exact List.forall_mem_singleton.mpr (silent_reserve hout size)
  · change IsWord w.symbol
    rw [steps.symbol]
    exact isWord_symbol named hop
  · change ∀ text ∈ w.args.map Arg.text, Silent text
    rw [steps.args, List.forall_mem_map, List.forall_mem_append, List.forall_mem_append,
      List.forall_mem_flatMap]
    exact ⟨⟨hresult _ _, fun part hpart => (hquiet part hpart).args⟩, hresult _ _⟩
  · rw [steps.writeBacks, List.forall_mem_flatMap]
    exact fun part hpart => (hquiet part hpart).writeBacks
  · rw [steps.frees, List.forall_mem_append, List.forall_mem_flatMap]
    refine ⟨fun part hpart => (hquiet part hpart).frees, ?_⟩
    cases size? with
    | none => exact List.forall_mem_nil _
    | some size => exact List.forall_mem_singleton.mpr hout

/-! ### The module -/

/-- **The calls of exports**: the allocator, the end of each handle, the start of the
module, and one call for each wrapper. -/
def Module.exportCalls (m : Module) : List ExportCall :=
  [mallocCall, freeCall] ++ m.classes.filterMap HandleClass.disposal?
    ++ [initializeCall, startCall] ++ m.interfaces.flatMap fun (_, ws) => ws.map Wrapper.exportCall

/-- **What a module is made of.** -/
theorem exists_of_module {m : Module} (h : Module.ofContext ctx = .ok m) :
    Codec.all ctx.types = .ok m.codecs ∧
      m.classes = ctx.api.handles.map (HandleClass.ofHandle ctx.api) ∧
      List.Forall₂ (fun i p => p.1 = i ∧
        List.Forall₂ (fun op w => Wrapper.ofOperation ctx op = .ok w)
          (i.operations.filter fun op => op.kind ≠ .destructor) p.2)
        ctx.api.interfaces m.interfaces := by
  obtain ⟨codecs, hcodecs, h⟩ := bind_eq_ok_iff.mp h
  obtain ⟨interfaces, hinterfaces, h⟩ := bind_eq_ok_iff.mp h
  obtain rfl := pure_eq_ok_iff.mp h
  refine ⟨hcodecs, rfl, (mapM_eq_ok_iff.mp hinterfaces).imp fun i p hp => ?_⟩
  obtain ⟨ws, hws, hp⟩ := bind_eq_ok_iff.mp hp
  obtain rfl := pure_eq_ok_iff.mp hp
  exact ⟨rfl, mapM_eq_ok_iff.mp hws⟩

/-- The operation of a wrapper in a module. -/
theorem exists_operation_of_mem {m : Module} (h : Module.ofContext ctx = .ok m)
    {p : Interface × List Wrapper} (hp : p ∈ m.interfaces) {w : Wrapper} (hw : w ∈ p.2) :
    ∃ op ∈ p.1.operations, op.kind ≠ .destructor ∧ op ∈ ctx.api.operations ∧
      Wrapper.ofOperation ctx op = .ok w := by
  obtain ⟨-, -, hinterfaces⟩ := exists_of_module h
  obtain ⟨i, hi, rfl, hws⟩ := exists_mem_of_forall₂ hinterfaces.flip hp
  obtain ⟨op, hop, hof⟩ := exists_mem_of_forall₂ hws.flip hw
  rw [List.mem_filter, decide_eq_true_eq] at hop
  exact ⟨op, hop.1, hop.2, mem_operations_of_mem hi hop.1, hof⟩

/-- **The destructor that a class calls** is an operation of the owner of its handle. -/
theorem exists_operation_of_disposal? {handle : Handle} {call : ExportCall}
    (h : (HandleClass.ofHandle ctx.api handle).disposal? = some call) :
    ∃ op ∈ ctx.api.operations, call = ⟨op.symbol ctx.apiName, ["this.#ptr"]⟩ := by
  obtain ⟨symbol, hsymbol, rfl⟩ := Option.map_eq_some_iff.mp h
  obtain ⟨i, howner, rfl⟩ := Option.map_eq_some_iff.mp hsymbol
  have hhandle : i.constructedHandle? = some handle.name := by simpa using List.find?_some howner
  have hop : ⟨i, .destructor, Interface.destructorOf handle.name⟩ ∈ i.operations :=
    mem_operations_iff.mpr (.inr (.inl ⟨handle.name, hhandle, rfl⟩))
  exact ⟨_, mem_operations_of_mem (List.mem_of_find?_eq_some howner) hop, rfl⟩

/-- The classes of handles. -/
theorem accounted_classes (named : ctx.Worded) {m : Module} (h : Module.ofContext ctx = .ok m) :
    ∀ c ∈ m.classes, Code.Each (fun text => Accounted m.exportCalls text ∨
      ∃ handle ∈ ctx.api.handles, IsRemark handle text) c.lines := by
  obtain ⟨-, hclasses, -⟩ := exists_of_module h
  intro c hc
  -- The end of the handle is among the calls of the module.
  have hcalls : c.disposal?.toList ⊆ m.exportCalls := by
    intro call hcall
    have hmem : call ∈ m.classes.filterMap HandleClass.disposal? :=
      List.mem_filterMap.mpr ⟨c, hc, Option.mem_toList.mp hcall⟩
    simp [Module.exportCalls, hmem]
  rw [hclasses] at hc
  obtain ⟨handle, hhandle, rfl⟩ := List.mem_map.mp hc
  have hplain : ∀ call ∈ (HandleClass.ofHandle ctx.api handle).disposal?, call.Plain := by
    intro call hcall
    obtain ⟨op, hop, rfl⟩ := exists_operation_of_disposal? hcall
    exact ⟨isWord_symbol named hop, List.forall_mem_singleton.mpr (silent_ofList _ rfl)⟩
  refine (accounted_handleClass (named.handles handle hhandle) hplain).imp fun text htext => ?_
  exact htext.imp (·.mono hcalls) fun hremark => ⟨handle, hhandle, hremark⟩

/-- Groups of lines with empty lines between them. -/
theorem each_spaced {P : String → Prop} (hblank : P "") {groups : List (List Line)}
    (h : ∀ g ∈ groups, Code.Each P g) : Code.Each P (spaced groups) := by
  cases groups with
  | nil => exact Code.each_nil
  | cons g rest =>
    obtain ⟨hg, hrest⟩ := List.forall_mem_cons.mp h
    rw [spaced, Code.each_append, Code.each_flatMap]
    exact ⟨hg, fun g' hg' => Code.each_cons.mpr ⟨hblank, hrest g' hg'⟩⟩

/-- The wrappers of an interface. -/
theorem accounted_interfaceLines (named : ctx.Worded) {m : Module}
    (h : Module.ofContext ctx = .ok m) :
    ∀ p ∈ m.interfaces, Code.Each (Accounted m.exportCalls) (interfaceLines p.1 p.2) := by
  obtain ⟨-, -, hinterfaces⟩ := exists_of_module h
  intro p hp
  have hwrappers : Code.Each (Accounted m.exportCalls) (spaced (p.2.map Wrapper.lines)) := by
    refine each_spaced (.silent (silent_ofList _ rfl)) (List.forall_mem_map.mpr fun w hw => ?_)
    obtain ⟨op, -, -, hop, hof⟩ := exists_operation_of_mem h hp hw
    -- the call of a wrapper is among those of the module
    have hquiet := quiet_wrapper named hop hof
    refine ((callsOnce_lines hquiet).accounted hquiet.call).imp fun text htext => ?_
    have hmem : w.exportCall ∈ m.interfaces.flatMap fun (_, ws) => ws.map Wrapper.exportCall :=
      List.mem_flatMap.mpr ⟨p, hp, List.mem_map_of_mem hw⟩
    exact htext.mono (List.cons_subset.mpr ⟨List.mem_append_right _ hmem, List.nil_subset _⟩)
  have hword : IsWord p.1.name := by
    obtain ⟨i, hi, rfl, -⟩ := exists_mem_of_forall₂ hinterfaces.flip hp
    exact named.interfaces _ hi
  have hname := silent_of_isWord hword
  have hcreate := silent_of_isWord hword.pascalCase
  simp only [interfaceLines, Code.each_append, Code.each_block, Code.each_blockWith, Code.each_cons,
    Code.each_nil, Code.text_comment, Line.text_blank]
  with_reducible repeat' first
    | assumption | apply And.intro | trivial | apply Accounted.silent | apply Silent.append
    | exact silent_ofList _ rfl

/-- **Every mention of exports in the module is accounted for**, the remarks in front of the
classes apart. -/
theorem accounted_lines (named : ctx.Worded) {m : Module} (h : Module.ofContext ctx = .ok m) :
    Code.Each (fun text => Accounted m.exportCalls text ∨
      ∃ handle ∈ ctx.api.handles, IsRemark handle text) (m.lines ctx) := by
  obtain ⟨hcodecs, -, -⟩ := exists_of_module h
  -- the calls of the fixed parts are known
  have hallocator : [mallocCall, freeCall] ⊆ m.exportCalls := by
    intro c hc
    simp only [Module.exportCalls, List.mem_append, hc, true_or]
  have hstart : [initializeCall, startCall] ⊆ m.exportCalls := by
    intro c hc
    simp only [Module.exportCalls, List.mem_append, hc, true_or, or_true]
  -- what is exported are words
  have hexports : ∀ n ∈ loaderName ctx.apiName :: ctx.api.handles.map (·.name),
      Silent ("export \x7b " ++ n ++ " \x7d;") := by
    intro n hn
    have hname : Silent n := by
      rcases List.mem_cons.mp hn with rfl | hn
      · exact silent_of_isWord (isWord_loaderName named.api)
      · obtain ⟨handle, hhandle, rfl⟩ := List.mem_map.mp hn
        exact silent_of_isWord (named.handles handle hhandle)
    with_reducible repeat' first | assumption | apply Silent.append | exact silent_ofList _ rfl
  have hsilent {ls : List Line} (hls : Code.Each Silent ls) :
      Code.Each (fun text => Accounted m.exportCalls text ∨
        ∃ handle ∈ ctx.api.handles, IsRemark handle text) ls :=
    hls.imp fun _ hs => .inl (.silent hs)
  have hcomment {text : String} (htext : Silent text) : Code.Each Silent [Code.comment text] :=
    Code.each_cons.mpr ⟨Silent.append (silent_ofList _ rfl) htext, Code.each_nil⟩
  -- part by part; only the classes have remarks
  simp only [Module.lines, Code.each_append, and_assoc]
  refine ⟨accounted_memoryHelpers.imp fun _ ht => .inl (ht.mono hallocator),
    hsilent (silent_codecLines named hcodecs), ?_, hsilent silent_systemInterface,
    hsilent (silent_importLines named.api),
    (accounted_loaderLines named).imp fun _ ht => .inl (ht.mono hstart), ?_,
    hsilent (hcomment (silent_ofList _ rfl)),
    hsilent (Code.each_lines.mpr (List.forall_mem_map.mpr hexports))⟩
  · split
    · exact Code.each_nil
    · rw [Code.each_append, Code.each_flatMap]
      exact ⟨hsilent (hcomment (silent_ofList _ rfl)), accounted_classes named h⟩
  · rw [Code.each_flatMap]
    exact fun p hp => (accounted_interfaceLines named h p hp).imp fun _ => .inl

/-- **Whatever a line of the module calls is one of its calls of exports**, unless the line
is the remark in front of a class. -/
theorem exists_exportCall_of_callsIn (named : ctx.Worded) {m : Module}
    (h : Module.ofContext ctx = .ok m) {l : Line} (hl : l ∈ m.lines ctx)
    (hremark : ∀ handle ∈ ctx.api.handles, ¬ IsRemark handle l.text) {symbol : String}
    (hcalls : CallsIn l.text symbol) : ∃ c ∈ m.exportCalls, c.symbol = symbol := by
  rcases accounted_lines named h l hl with haccounted | ⟨handle, hhandle, hl⟩
  · exact exists_call_of_callsIn haccounted hcalls
  · exact absurd hl (hremark handle hhandle)

/-! ### The calls stand in the module -/

/-- The call stands on one of the lines. -/
def Shows (c : ExportCall) (ls : List Line) : Prop :=
  ∃ l ∈ ls, ∃ before behind, l.text = before ++ c.text ++ behind

section Shows

variable {c : ExportCall} {as bs ls : List Line}

theorem shows_append : Shows c (as ++ bs) ↔ Shows c as ∨ Shows c bs := by
  simp only [Shows, List.mem_append, or_and_right, exists_or]

theorem shows_indent : Shows c (Code.indent ls) ↔ Shows c ls := by
  simp [Shows, Code.indent]

theorem Shows.blockWith (h : Shows c ls) (header close : String) :
    Shows c (Code.blockWith header close ls) := by
  have hbody := shows_indent.mpr h
  obtain ⟨l, hl, htext⟩ := hbody
  exact ⟨l, by simp [Code.blockWith, Code.enclosed, hl], htext⟩

theorem Shows.flatMap {α : Type} {f : α → List Line} {xs : List α} {x : α} (hx : x ∈ xs)
    (h : Shows c (f x)) : Shows c (xs.flatMap f) := by
  obtain ⟨l, hl, htext⟩ := h
  exact ⟨l, List.mem_flatMap.mpr ⟨x, hx, hl⟩, htext⟩

end Shows

theorem shows_wrapper (w : Wrapper) : Shows w.exportCall w.lines := by
  have hcall : Shows w.exportCall w.callLines := by
    -- the call is on the first line, with something in front of it or not
    have hline (front : String) (rest : List Line) :
        Shows w.exportCall ({ text := front ++ w.call ++ ";" } :: rest) :=
      ⟨_, List.mem_cons_self, front, ";", rfl⟩
    have halone := hline ""
    rw [String.empty_append] at halone
    rw [Wrapper.callLines]
    cases w.outcome with
    | done | stored _ => exact halone _
    | status | statusThen _ | direct _ => exact hline _ _
  have hbody : Shows w.exportCall w.body := by
    rw [Wrapper.body]
    split
    · simp only [shows_append, shows_indent, hcall, true_or, or_true]
    · exact hcall
  exact hbody.blockWith _ _

theorem shows_handleClass {h : HandleClass} {c : ExportCall} (hc : h.disposal? = some c) :
    Shows c h.lines := by
  have hcall : Shows c (Code.lines (h.disposal?.toList.map fun call => call.text ++ ";")) := by
    rw [hc]
    exact ⟨_, List.mem_singleton_self _, "", ";", by rw [String.empty_append]⟩
  have hdispose : Shows c (Code.block "dispose()" (Code.block "if (this.#ptr !== 0)"
      (Code.lines (h.disposal?.toList.map fun call => call.text ++ ";")
        ++ Code.lines ["this.#ptr = 0;"]))) :=
    ((shows_append.mpr (.inl hcall)).blockWith _ _).blockWith _ _
  rw [HandleClass.lines, shows_append, shows_append]
  refine .inl (.inr (Shows.blockWith ?_ _ _))
  simp only [shows_append, hdispose, true_or, or_true]

theorem shows_startLines {c : ExportCall} (hc : c ∈ [initializeCall, startCall]) :
    Shows c startLines := by
  have hreactor : Shows initializeCall (Code.lines [initializeCall.text ++ ";"]) :=
    ⟨_, List.mem_singleton_self _, "", ";", by rw [String.empty_append]⟩
  have hstart : Shows startCall (Code.lines [startCall.text ++ ";"]) :=
    ⟨_, List.mem_singleton_self _, "", ";", by rw [String.empty_append]⟩
  simp only [startLines, shows_append, shows_indent]
  rcases List.mem_pair.mp hc with rfl | rfl
  · exact .inl (.inl (.inr (hreactor.blockWith _ _)))
  · exact .inl (.inr (.inl (.inl (hstart.blockWith _ _))))

theorem shows_memoryHelpers {c : ExportCall} (hc : c ∈ [mallocCall, freeCall]) :
    Shows c memoryHelpers := by
  rcases List.mem_pair.mp hc with rfl | rfl
  · exact ⟨_, List.mem_of_getElem? (i := 7) rfl, "  return ", ";", rfl⟩
  · exact ⟨_, List.mem_of_getElem? (i := 11) rfl, "  ", ";", rfl⟩

theorem shows_spaced {c : ExportCall} {groups : List (List Line)} {g : List Line}
    (hg : g ∈ groups) (h : Shows c g) : Shows c (spaced groups) := by
  cases groups with
  | nil => exact absurd hg List.not_mem_nil
  | cons first rest =>
    rw [spaced, shows_append]
    rcases List.mem_cons.mp hg with rfl | hg
    · exact .inl h
    · exact .inr (.flatMap hg (shows_append.mpr (.inr h)))

/-- **Every call of an export stands in the module.** -/
theorem shows_of_mem_exportCalls {m : Module} {c : ExportCall} (hc : c ∈ m.exportCalls) :
    Shows c (m.lines ctx) := by
  rw [Module.exportCalls, List.mem_append, List.mem_append, List.mem_append] at hc
  simp only [Module.lines, shows_append]
  rcases hc with ((hc | hc) | hc) | hc
  · -- the allocator
    simp only [shows_memoryHelpers hc, true_or]
  · -- the end of a handle, in its class
    obtain ⟨h, hh, hc⟩ := List.mem_filterMap.mp hc
    have hclasses : Shows c (m.classes.flatMap HandleClass.lines) :=
      .flatMap hh (shows_handleClass hc)
    have hempty : m.classes.isEmpty = false := by
      rw [List.isEmpty_eq_false_iff]
      exact List.ne_nil_of_mem hh
    rw [hempty, if_neg Bool.false_ne_true, shows_append]
    simp only [hclasses, true_or, or_true]
  · -- the start, in the loader
    have hloader : Shows c (loaderLines ctx) := by
      rw [loaderLines, shows_append, shows_append]
      refine .inl (.inr (Shows.blockWith ?_ _ _))
      simp only [shows_append, shows_startLines hc, true_or, or_true]
    simp only [hloader, true_or, or_true]
  · -- a wrapper, in the object of its interface
    obtain ⟨⟨i, ws⟩, hp, hc⟩ := List.mem_flatMap.mp hc
    obtain ⟨w, hw, rfl⟩ := List.mem_map.mp hc
    have hinterface : Shows w.exportCall
        (m.interfaces.flatMap fun (i, ws) => interfaceLines i ws) := by
      have hspaced := shows_spaced (List.mem_map_of_mem hw) (shows_wrapper w)
      refine .flatMap hp ?_
      dsimp only
      rw [interfaceLines, shows_append, shows_append]
      exact .inl (.inr ((hspaced.blockWith _ _).blockWith _ _))
    simp only [hinterface, true_or, or_true]

end JavaScript

end Bindery
