import Bindery.Proofs.Wasm.Ranges

/-!
# Results in memory

An operation with a status, and one that returns a record, hands its result over in memory:
JavaScript reserves room for it and passes the address, Go stores the result there, and
JavaScript reads it back. The size of the room comes from `Abi.valueSize`, what Go stores
from the body of the exported function, and what JavaScript reads from the outcome of the wrapper.

All of it is told by one storage (`resultStorage?`):

* `spans_of_valueSize` — the room is as large as the storage;
* `StoresResult` — Go stores the storage through the result pointer, in one statement, and
  all its other accesses are through the pointers of parameters;
* `LoadsResult` — JavaScript reads the storage through the result pointer;
* `SetsUp`, `ReadsBack` — what else a wrapper does goes through the pointers of parameters.
-/

namespace Bindery

open JavaScript (Arg Cell Outcome Wrapper)
open Go (Value WasmCodec WasmParam WasmAnswer WasmExport)

namespace Wasm

variable {types : Schema} {ctx : Context} {ty dest text : String} {s : Storage}

/-! ### What a result is in memory -/

/-- A handle is a number of 32 bits. -/
def handleStorage : Storage := .number ⟨4, .unsigned⟩

/-- **A method that hands its result over in memory**: one with a status, or one that
returns a record. -/
structure ReturnsInMemory (types : Schema) (m : Method) (r : Returns) : Prop where
  returns : m.returns = some r
  fallible_or_record : m.error ≠ none ∨ Abi.isRecordType types r.type = true

theorem ReturnsInMemory.isRecord {m : Method} {r : Returns} (h : ReturnsInMemory types m r)
    (herror : m.error = none) : Abi.isRecordType types r.type = true :=
  h.fallible_or_record.resolve_left fun hne => hne herror

theorem ReturnsInMemory.returnsRecord {m : Method} {r : Returns} (h : ReturnsInMemory types m r)
    (herror : m.error = none) : returnsRecord types m = true := by
  rw [Wasm.returnsRecord, h.returns, Option.any_some, ← isRecordType_eq]
  exact h.isRecord herror

/-- What a result is where it is stored. Texts and buffers are not returned. -/
def resultStorage? (types : Schema) (ty : String) : Option Storage :=
  match TypeRef.ofString? ty with
  | some (.handle _) => some handleStorage
  | some (.primitive p) => some (.ofPrimitive p)
  | some (.qualified n) => Storage.ofField? types (.named n)
  | _ => none

/-- **The room for a result is as large as the result.** -/
theorem spans_of_valueSize {n : Nat} (h : Abi.valueSize types ty = .ok n)
    (hs : resultStorage? types ty = some s) : s.Spans types n := by
  unfold Abi.valueSize at h
  unfold resultStorage? at hs
  cases ht : TypeRef.ofString? ty with
  | none =>
    rw [ht] at hs
    cases hs
  | some t =>
    rw [ht] at h hs
    cases t with
    | string | buffer _ => cases hs
    | handle name =>
      obtain rfl := Option.some.inj hs
      obtain rfl := Except.ok.inj h
      exact .number _
    | primitive p =>
      obtain rfl := Option.some.inj hs
      obtain rfl := Except.ok.inj h
      exact Storage.spans_ofPrimitive types p
    | qualified name =>
      dsimp only at h hs
      cases hd : types.get? name with
      | none =>
        rw [hd] at h
        cases h
      | some d =>
        rw [hd] at h
        dsimp only at h
        -- the size and the storage ask the same two questions about the definition
        have henum : types.isEnum name = d.isEnum := by rw [Schema.isEnum, hd, Option.any_some]
        rw [Storage.ofField?, henum] at hs
        split at h
        · next hkind =>
          rw [if_pos hkind] at hs
          obtain rfl := Option.some.inj hs
          obtain rfl := Except.ok.inj h
          exact .number _
        · next hkind =>
          rw [if_neg hkind] at hs
          obtain ⟨l, hl, rfl⟩ := map_eq_ok_iff.mp h
          split at hs
          · obtain rfl := Option.some.inj hs
            exact .record hl
          · cases hs

/-! ### What JavaScript reads -/

/-- An expression of JavaScript that reads a result at the result pointer. A handle is
wrapped in an object. -/
inductive LoadsResult : Storage → String → Prop where
  | value {s : Storage} {text : String} (loads : JavaScriptLoads "_outPtr" s text) :
      LoadsResult s text
  | handle (name : String) {text : String} (loads : JavaScriptLoads "_outPtr" handleStorage text) :
      LoadsResult handleStorage ("new " ++ name ++ "(" ++ text ++ ")")

theorem loadsResult_of_readResult (h : JavaScript.readResult ctx ty = .ok text) :
    ∃ s, resultStorage? ctx.types ty = some s ∧ LoadsResult s text := by
  rw [JavaScript.readResult] at h
  obtain ⟨t, ht, h⟩ := bind_eq_ok_iff.mp h
  rw [classify_eq_ok_iff] at ht
  rw [resultStorage?, ht]
  cases t with
  | string | buffer _ => exact absurd h throw_ne_ok
  | handle name =>
    obtain rfl := pure_eq_ok_iff.mp h
    have hloads : JavaScriptLoads "_outPtr" handleStorage
        ("_view().get" ++ "Uint32" ++ "(" ++ "_outPtr" ++ ", true)") := .number rfl
    -- the template is one text, of which the read is a part
    have htext : "new " ++ name ++ "(_view().getUint32(" ++ JavaScript.outPtr ++ ", true))" =
        "new " ++ name ++ "(" ++ ("_view().get" ++ "Uint32" ++ "(" ++ "_outPtr" ++ ", true)")
          ++ ")" := by
      simp only [String.append_assoc, String.append_right_inj]
      decide
    refine ⟨handleStorage, rfl, ?_⟩
    rw [htext]
    exact .handle name hloads
  | primitive p =>
    obtain rfl := pure_eq_ok_iff.mp h
    have holds : CellHolds ctx.types (.scalar p) (.ofPrimitive p) := cellHolds_scalar p
    exact ⟨_, rfl, .value (holds.loads "_outPtr")⟩
  | qualified n =>
    dsimp only at h ⊢
    split at h
    · next c hc =>
      obtain rfl := pure_eq_ok_iff.mp h
      have hcell : Cell.ofField? ctx.types (.named n) = some c := hc
      exact ⟨_, ofField?_of_cell hcell, .value ((cellHolds_storage hcell).loads "_outPtr")⟩
    · exact absurd h throw_ne_ok

/-- **A statement in front of the call** for a parameter: a copy of it, room for it, or what is
written to that room. -/
inductive SetsUp (p : Parameter) : String → Prop where
  | text : SetsUp p ("const " ++ JavaScript.ptrName p ++ " = _encodeString("
      ++ JavaScript.identifier p.name ++ ");")
  | buffer : SetsUp p ("const [" ++ JavaScript.ptrName p ++ ", " ++ JavaScript.lenName p
      ++ "] = _copyBufferToWasm(" ++ JavaScript.identifier p.name ++ ");")
  | room (size : Nat) : SetsUp p ("const " ++ JavaScript.ptrName p ++ " = _malloc("
      ++ toString size ++ ");")
  | stored {s : Storage} {text : String}
      (stores : JavaScriptStores (JavaScript.ptrName p) (JavaScript.identifier p.name) s text) :
      SetsUp p text

/-- **A statement behind the call** that copies a parameter back from its own pointer. -/
inductive ReadsBack (p : Parameter) : String → Prop where
  | buffer : ReadsBack p ("_copyBufferFromWasm(" ++ JavaScript.ptrName p ++ ", "
      ++ JavaScript.identifier p.name ++ ");")
  | record (name : String) : ReadsBack p ("Object.assign(" ++ JavaScript.identifier p.name
      ++ ", _read" ++ Naming.flatTypeName name ++ "(" ++ JavaScript.ptrName p ++ "));")

/-- **What a parameter takes** goes through its own pointer. -/
structure OwnPointer (p : Parameter) (part : JavaScript.Marshalled) : Prop where
  setup : ∀ x ∈ part.setup, SetsUp p x.text
  writeBacks : ∀ b ∈ part.writeBacks, ReadsBack p b.text

/-- What is passed as it is needs no memory. -/
theorem OwnPointer.of_args {p : Parameter} (args : List Arg) : OwnPointer p { args } :=
  ⟨nofun, nofun⟩

/-- A value of a schema type is written to its own room. -/
theorem ownPointer_of_marshalSchema {p : Parameter} {q : String} {part : JavaScript.Marshalled}
    (h : JavaScript.marshalSchema ctx p q = .ok part) : OwnPointer p part := by
  rw [JavaScript.marshalSchema] at h
  split at h
  · cases h
  · next cell hcell =>
    split at h
    · -- an enumeration by value is not in memory at all
      obtain rfl := Except.ok.inj h
      exact .of_args _
    · obtain ⟨size, -, h⟩ := bind_eq_ok_iff.mp h
      obtain rfl := pure_eq_ok_iff.mp h
      have hholds := cellHolds_storage (show Cell.ofField? ctx.types (.named q) = _ from hcell)
      refine ⟨?_, ?_⟩
      · intro x hx
        rcases List.mem_pair.mp hx with rfl | rfl
        · exact .room size
        · exact .stored (hholds.stores _ _)
      · -- only a record that is lent for writing is read back
        intro b hb
        dsimp only at hb
        split at hb
        · obtain rfl := List.mem_singleton.mp hb
          exact .record _
        · exact absurd hb List.not_mem_nil

theorem ownPointer_of_marshal {p : Parameter} {part : JavaScript.Marshalled}
    (h : JavaScript.marshal ctx p = .ok part) : OwnPointer p part := by
  rw [JavaScript.marshal] at h
  obtain ⟨t, -, h⟩ := bind_eq_ok_iff.mp h
  -- Parameters that take no memory have neither arrangements nor anything to copy back.
  cases t with
  | string =>
    obtain rfl := pure_eq_ok_iff.mp h
    exact ⟨fun x hx => List.mem_singleton.mp hx ▸ .text, List.forall_mem_nil _⟩
  | handle _ =>
    obtain rfl := pure_eq_ok_iff.mp h
    exact .of_args _
  | buffer element =>
    obtain rfl := pure_eq_ok_iff.mp h
    refine ⟨fun x hx => List.mem_singleton.mp hx ▸ .buffer, fun b hb => ?_⟩
    dsimp only at hb
    split at hb
    · exact List.mem_singleton.mp hb ▸ .buffer
    · exact absurd hb List.not_mem_nil
  | primitive q =>
    cases q <;>
    · obtain rfl := pure_eq_ok_iff.mp h
      exact .of_args _
  | qualified q => exact ownPointer_of_marshalSchema h

/-- **The room that a wrapper reserves, and what it reads from it.** -/
theorem exists_room_of_wrapper {op : Operation} {w : Wrapper}
    (h : Wrapper.ofOperation ctx op = .ok w) {r : Returns}
    (hr : ReturnsInMemory ctx.types op.method r) :
    ∃ n s setup load, Abi.valueSize ctx.types r.type = .ok n ∧
      resultStorage? ctx.types r.type = some s ∧ LoadsResult s load ∧
      w.setup = setup ++ [.reserve "_outPtr" n] ∧ "_outPtr" ∈ w.frees ∧
      w.outcome = (if op.method.error = none then .stored load else .statusThen load) ∧
      (∀ x ∈ setup, x = .allocs ∨ ∃ p ∈ op.method.parameters, SetsUp p x.text) ∧
      ∀ b ∈ w.writeBacks, ∃ p ∈ op.method.parameters, ReadsBack p b.text := by
  have hplace : ∃ place, JavaScript.resultPlace? ctx op.method = some (place, r.type) := by
    unfold JavaScript.resultPlace?
    rw [hr.returns]
    cases herror : op.method.error with
    | some e => exact ⟨.trailing, rfl⟩
    | none => exact ⟨.leading, if_pos (hr.isRecord herror)⟩
  obtain ⟨place, hplace⟩ := hplace
  -- (1) the last thing that is set up is the room
  rw [Wrapper.ofOperation, hplace] at h
  simp only [bind_eq_ok_iff, pure_eq_ok_iff, mapError_eq_ok_iff, mapM_eq_ok_iff] at h
  obtain ⟨parts, hparts, n, hsize, _, rfl, outcome, houtcome, rfl⟩ := h
  -- (2) the outcome reads what is in it
  have hreads : ∃ s load, resultStorage? ctx.types r.type = some s ∧ LoadsResult s load ∧
      outcome = (if op.method.error = none then .stored load else .statusThen load) := by
    unfold JavaScript.outcomeOf at houtcome
    rw [hr.returns] at houtcome
    cases herror : op.method.error with
    | some e =>
      rw [herror] at houtcome
      obtain ⟨text, htext, rfl⟩ := map_eq_ok_iff.mp houtcome
      obtain ⟨s, hs, hloads⟩ := loadsResult_of_readResult htext
      exact ⟨s, text, hs, hloads, (if_neg (Option.some_ne_none e)).symm⟩
    | none =>
      rw [herror] at houtcome
      dsimp only at houtcome
      rw [if_pos (hr.isRecord herror)] at houtcome
      obtain ⟨text, htext, rfl⟩ := map_eq_ok_iff.mp houtcome
      obtain ⟨s, hs, hloads⟩ := loadsResult_of_readResult htext
      exact ⟨s, text, hs, hloads, (if_pos rfl).symm⟩
  obtain ⟨s, load, hs, hloads, houtcome⟩ := hreads
  -- (3) everything else belongs to a parameter
  have hown : ∀ part ∈ parts, ∃ p ∈ op.method.parameters, OwnPointer p part := by
    intro part hpart
    obtain ⟨p, hp, hmarshal⟩ := exists_mem_of_forall₂ hparts.flip hpart
    exact ⟨p, hp, ownPointer_of_marshal hmarshal⟩
  refine ⟨n, s, _, load, hsize, hs, hloads, rfl, by simp [JavaScript.outPtr], houtcome, ?_, ?_⟩
  · intro x hx
    rcases List.mem_append.mp hx with hallocs | hx
    · split at hallocs
      · exact .inl (List.mem_singleton.mp hallocs)
      · exact absurd hallocs List.not_mem_nil
    · obtain ⟨part, hpart, hx⟩ := List.mem_flatMap.mp hx
      obtain ⟨p, hp, howns⟩ := hown part hpart
      exact .inr ⟨p, hp, howns.setup x hx⟩
  · intro b hb
    obtain ⟨part, hpart, hb⟩ := List.mem_flatMap.mp hb
    obtain ⟨p, hp, howns⟩ := hown part hpart
    exact ⟨p, hp, howns.writeBacks b hb⟩

/-! ### What Go stores -/

/-- A word that is assigned a number holds it. -/
theorem goStores_word (dest source : String) :
    GoStores dest source handleStorage (Go.wordAt dest ++ (" = uint32(" ++ (source ++ ")"))) := by
  have hstores : GoStores dest source handleStorage
      ("*(*" ++ "uint32" ++ ")(unsafe.Pointer(" ++ dest ++ ")) = " ++ "uint32" ++ "(" ++ source
        ++ ")") := .converted rfl
  have hstart : "*(*" ++ "uint32" ++ ")(unsafe.Pointer(" = "*(*uint32)(unsafe.Pointer(" := by decide
  have hmiddle : ")) = " ++ "uint32" ++ "(" = "))" ++ " = uint32(" := by decide
  -- the same text, cut around the names instead of around the type
  have hcut : ∀ a b c d e f g h i : String, a ++ b ++ c ++ d ++ e ++ f ++ g ++ h ++ i =
      a ++ b ++ c ++ d ++ (e ++ f ++ g) ++ (h ++ i) := by
    intros
    simp only [String.append_assoc]
  have hjoin : ∀ a b c d e : String, a ++ b ++ (c ++ d) ++ e = a ++ b ++ c ++ (d ++ e) := by
    intros
    simp only [String.append_assoc]
  rw [hcut, hstart, hmiddle, hjoin] at hstores
  exact hstores

/-- The statement of Go that stores a result. -/
theorem goStores_of_wasmStore (h : Go.wasmStore ctx ty dest = .ok text)
    (hs : resultStorage? ctx.types ty = some s) : GoStores dest "result" s text := by
  rw [Go.wasmStore] at h
  obtain ⟨t, ht, h⟩ := bind_eq_ok_iff.mp h
  rw [classify_eq_ok_iff] at ht
  rw [resultStorage?, ht] at hs
  -- texts and elements are not stored
  cases t with
  | string | buffer _ => cases hs
  | handle name =>
    obtain rfl := Option.some.inj hs
    obtain rfl := pure_eq_ok_iff.mp h
    have hassign : " = uint32(result)" = " = uint32(" ++ ("result" ++ ")") := by decide
    rw [hassign]
    exact goStores_word dest "result"
  | primitive p =>
    obtain rfl := Option.some.inj hs
    obtain rfl := pure_eq_ok_iff.mp h
    have holds : ValueHolds ctx.types (.scalar p) (.ofPrimitive p) := valueHolds_scalar p
    exact holds.stores dest "result"
  | qualified n =>
    obtain ⟨v, hv, htext⟩ := bind_eq_ok_iff.mp h
    obtain rfl := pure_eq_ok_iff.mp htext
    have hvalue : Value.ofScalar? ctx.types (.named n) = some v := by
      unfold Value.ofName at hv
      split at hv
      · next v' hv' => rw [Value.ofScalar?, hv', Except.ok.inj hv]
      · cases hv
    have hstorage := ofField?_of_value hvalue
    obtain rfl : goStorage v = s := Option.some.inj (hstorage.symm.trans hs)
    exact (valueHolds_storage hvalue).stores dest "result"

/-- **What is passed to a method for a parameter**: what came in, converted or not, what its
pointer points to, or the address of a copy. -/
inductive Passes (p : Parameter) : String → Prop where
  | value : Passes p (Go.identifier p.name)
  | truth : Passes p (Go.identifier p.name ++ " != 0")
  | text : Passes p ("_cstring(" ++ Go.identifier p.name ++ ")")
  | converted (type : String) : Passes p (type ++ "(" ++ Go.identifier p.name ++ ")")
  | slice (type : String) : Passes p ("unsafe.Slice((*" ++ type ++ ")(unsafe.Pointer("
      ++ Go.identifier p.name ++ ")), int(" ++ Abi.lengthName p.name ++ "))")
  | loaded (v : Value) : Passes p (Go.readAt (Go.identifier p.name) v)
  | copy (own : String) : Passes p ("&" ++ own)

/-- **A parameter whose memory is accessed through its own pointer.** -/
structure PassedThrough (p : Parameter) (x : Go.Passed) : Prop where
  locals : ∀ line ∈ x.locals, ∃ own v, line = own ++ " := " ++ Go.readAt (Go.identifier p.name) v
  arg : Passes p x.arg
  writeBacks : ∀ line ∈ x.writeBacks, ∃ own v, line = Go.writeAt (Go.identifier p.name) own v

/-- What is passed as it is needs no memory of its own. -/
theorem PassedThrough.of_arg {p : Parameter} {arg : String} (h : Passes p arg) :
    PassedThrough p { arg } :=
  ⟨nofun, h, nofun⟩

theorem passedThrough_of_wasmPass {p : Parameter} {x : Go.Passed}
    (h : Go.wasmPass ctx p = .ok x) : PassedThrough p x := by
  rw [Go.wasmPass] at h
  obtain ⟨t, -, h⟩ := bind_eq_ok_iff.mp h
  cases t with
  | string =>
    obtain rfl := pure_eq_ok_iff.mp h
    exact .of_arg .text
  | buffer element =>
    obtain rfl := pure_eq_ok_iff.mp h
    exact .of_arg (.slice element.row.go)
  | handle _ =>
    obtain rfl := pure_eq_ok_iff.mp h
    exact .of_arg .value
  | primitive q =>
    cases q with
    | bool =>
      obtain rfl := pure_eq_ok_iff.mp h
      exact .of_arg .truth
    | _ =>
      obtain rfl := pure_eq_ok_iff.mp h
      exact .of_arg (.converted _)
  | qualified q =>
    obtain ⟨v, -, h⟩ := bind_eq_ok_iff.mp h
    cases htransfer : p.effectiveTransfer with
    | value =>
      rw [htransfer] at h
      cases v with
      | enum name base =>
        obtain rfl := pure_eq_ok_iff.mp h
        exact .of_arg (.converted (Naming.flatTypeName name))
      | scalar q =>
        obtain rfl := pure_eq_ok_iff.mp h
        exact .of_arg (.loaded (.scalar q))
      | text =>
        obtain rfl := pure_eq_ok_iff.mp h
        exact .of_arg (.loaded .text)
      | record name =>
        obtain rfl := pure_eq_ok_iff.mp h
        exact .of_arg (.loaded (.record name))
    | ref =>
      rw [htransfer] at h
      obtain rfl := pure_eq_ok_iff.mp h
      exact .of_arg (.loaded v)
    | refMut =>
      -- only what is lent for writing is copied and written back
      rw [htransfer] at h
      obtain rfl := pure_eq_ok_iff.mp h
      refine ⟨?_, .copy (Go.argName p ++ "Go"), ?_⟩
      · intro line hline
        exact ⟨Go.argName p ++ "Go", v, List.mem_singleton.mp hline⟩
      · intro line hline
        exact ⟨Go.argName p ++ "Go", v, List.mem_singleton.mp hline⟩

/-- What comes before the call of a method that is dispatched. -/
def dispatchLines (op : Operation) (bail : String) (release : Bool) (passed : List Go.Passed) :
    List Line :=
  Code.lines ["key := " ++ Go.firstName op.method,
      "impl, ok := _lookup(key).(" ++ Go.interfaceName op.interface ++ ")"]
    ++ Code.block "if !ok" (Code.lines [bail])
    ++ (if release then Code.lines ["_release(key)"] else [])
    ++ Code.lines (passed.flatMap (·.locals))

/-- The call of a method that is dispatched. -/
def dispatchCall (op : Operation) (passed : List Go.Passed) : String :=
  "impl." ++ Naming.pascalCase op.method.name ++ "(" ++ Text.commaSep (passed.map (·.arg)) ++ ")"

/-- **What the body of an exported function does with its result pointer.** Either it stores
a value through the pointer, in one statement, or it leaves the pointer alone. All other
accesses to memory go through the pointers of parameters. -/
inductive StoresResult (op : Operation) (dest : String) (s : Storage) : List Line → Prop where
  /-- A constructor stores the key of what it has made. -/
  | constructor (struct : String) {text : String} (stores : GoStores dest "key" s text) :
      StoresResult op dest s
        (Code.lines ["key := _allocHandle(&" ++ struct ++ "\x7b\x7d)", text, "return 0"])
  | destructor (name : String) :
      StoresResult op dest s (Code.lines ["_freeHandle(" ++ name ++ ")"])
  /-- A function that no handle dispatches does nothing yet. -/
  | stub {rest : List String} (rest_eq : rest = [] ∨ rest = ["return 0"]) :
      StoresResult op dest s (Code.lines (Go.todo op.method :: rest))
  /-- A method with a status stores the result after the check for an error. -/
  | withStatus {bail text : String} {release : Bool} {passed : List Go.Passed} {fallback : Int}
      (through : ∀ x ∈ passed, ∃ p ∈ op.method.parameters, PassedThrough p x)
      (stores : GoStores dest "result" s text) :
      StoresResult op dest s (dispatchLines op bail release passed ++
        (Code.lines ["result, err := " ++ dispatchCall op passed]
          ++ Code.lines (passed.flatMap (·.writeBacks)) ++ Go.errorCheck fallback
          ++ Code.lines [text, "return 0"]))
  /-- A method without a status stores the result last. -/
  | withoutStatus {bail text : String} {release : Bool} {passed : List Go.Passed}
      (through : ∀ x ∈ passed, ∃ p ∈ op.method.parameters, PassedThrough p x)
      (stores : GoStores dest "result" s text) :
      StoresResult op dest s (dispatchLines op bail release passed ++
        (Code.lines ["result := " ++ dispatchCall op passed]
          ++ Code.lines (passed.flatMap (·.writeBacks)) ++ Code.lines [text]))

/-- The name of the result pointer. -/
def resultName (m : Method) : String := if m.error = none then "sret" else "out_result"

theorem resultName_of_error {m : Method} (h : m.error ≠ none) : resultName m = "out_result" :=
  if_neg h

/-- A method that is dispatched stores its result. -/
theorem storesResult_of_dispatch {op : Operation} {answer : WasmAnswer} {body : List Line}
    (h : Go.wasmDispatch ctx op answer = .ok body)
    (hanswer : WasmAnswer.ofMethod ctx op.method = .ok answer) {r : Returns}
    (hr : ReturnsInMemory ctx.types op.method r)
    (hs : resultStorage? ctx.types r.type = some s) :
    StoresResult op (resultName op.method) s body := by
  rw [Go.wasmDispatch] at h
  simp only [bind_eq_ok_iff, mapM_eq_ok_iff] at h
  obtain ⟨bail, -, passed, hpassed, fallback, -, h⟩ := h
  have hthrough : ∀ x ∈ passed, ∃ p ∈ op.method.parameters, PassedThrough p x := by
    intro x hx
    obtain ⟨p, hp, hpass⟩ := exists_mem_of_forall₂ hpassed.flip hx
    exact ⟨p, List.mem_of_mem_drop hp, passedThrough_of_wasmPass hpass⟩
  cases herror : op.method.error with
  | some e =>
    have hname : resultName op.method = Abi.outName :=
      resultName_of_error (by rw [herror]; exact Option.some_ne_none e)
    rw [herror, hr.returns] at h
    simp only [bind_eq_ok_iff, pure_eq_ok_iff] at h
    obtain ⟨text, htext, _, rfl, rfl⟩ := h
    rw [hname]
    exact .withStatus hthrough (goStores_of_wasmStore htext hs)
  | none =>
    -- without a status the result is a record, so Go answers through the pointer
    have hname : resultName op.method = Go.leadingResult := if_pos herror
    have hstored : answer = .stored :=
      (eq_stored_iff hanswer).mpr ⟨herror, hr.returnsRecord herror⟩
    rw [herror, hr.returns] at h
    dsimp only at h
    rw [if_pos hstored] at h
    simp only [bind_eq_ok_iff, pure_eq_ok_iff] at h
    obtain ⟨text, htext, _, rfl, rfl⟩ := h
    rw [hname]
    exact .withoutStatus hthrough (goStores_of_wasmStore htext hs)

/-- A constructor returns a handle. -/
theorem exists_handle_of_constructedStruct {m : Method} {struct : String} {r : Returns}
    (h : Go.constructedStruct m = .ok struct) (hr : m.returns = some r) :
    ∃ name, TypeRef.ofString? r.type = some (.handle name) := by
  unfold Go.constructedStruct Method.returnedHandle? Method.returnType? at h
  rw [hr] at h
  cases ht : TypeRef.ofString? r.type with
  | none => simp [ht] at h
  | some t =>
    cases t with
    | handle name => exact ⟨name, rfl⟩
    | string | buffer _ | primitive _ | qualified _ => simp [ht, TypeRef.handleName?] at h

theorem storesResult_of_constructor {op : Operation} {body : List Line}
    (h : Go.wasmConstructor op.method = .ok body) {r : Returns}
    (hr : ReturnsInMemory ctx.types op.method r)
    (hs : resultStorage? ctx.types r.type = some s) :
    StoresResult op (resultName op.method) s body := by
  rw [Go.wasmConstructor] at h
  obtain ⟨struct, hstruct, h⟩ := bind_eq_ok_iff.mp h
  obtain rfl := pure_eq_ok_iff.mp h
  -- the result is a handle, and no record, so there is a status
  obtain ⟨name, hname⟩ := exists_handle_of_constructedStruct hstruct hr.returns
  have herror : op.method.error ≠ none := by
    intro hnone
    have hrecord := hr.isRecord hnone
    rw [Abi.isRecordType, hname] at hrecord
    cases hrecord
  have hshape : op.method.shape = .fallibleValue := by
    rw [shape_eq_fallibleValue_iff, hr.returns]
    exact ⟨herror, Option.some_ne_none r⟩
  rw [resultStorage?, hname] at hs
  obtain rfl := Option.some.inj hs
  rw [if_pos hshape, resultName_of_error herror]
  have hassign : " = uint32(key)" = " = uint32(" ++ ("key" ++ ")") := by decide
  rw [hassign]
  exact .constructor struct (goStores_word "out_result" "key")

/-- **What an exported function stores through its result pointer.** -/
theorem storesResult_of_export {op : Operation} {e : WasmExport}
    (h : WasmExport.ofOperation ctx op = .ok e) {r : Returns}
    (hr : ReturnsInMemory ctx.types op.method r)
    (hs : resultStorage? ctx.types r.type = some s) :
    StoresResult op (resultName op.method) s e.body := by
  rw [WasmExport.ofOperation] at h
  simp only [bind_eq_ok_iff, mapM_eq_ok_iff] at h
  obtain ⟨answer, hanswer, params, -, h⟩ := h
  -- one body for each kind of operation, and two for methods
  split at h
  · obtain ⟨body, hbody, he⟩ := bind_eq_ok_iff.mp h
    obtain rfl := pure_eq_ok_iff.mp he
    exact storesResult_of_constructor hbody hr hs
  · obtain ⟨body, hbody, he⟩ := bind_eq_ok_iff.mp h
    obtain rfl := pure_eq_ok_iff.mp he
    obtain rfl := pure_eq_ok_iff.mp hbody
    exact .destructor (Go.firstName op.method)
  · split at h
    · obtain ⟨body, hbody, he⟩ := bind_eq_ok_iff.mp h
      obtain rfl := pure_eq_ok_iff.mp he
      exact storesResult_of_dispatch hbody hanswer hr hs
    · obtain ⟨body, hbody, he⟩ := bind_eq_ok_iff.mp h
      obtain rfl := pure_eq_ok_iff.mp he
      obtain rfl := pure_eq_ok_iff.mp hbody
      refine .stub ?_
      split
      · exact .inl rfl
      · exact .inr rfl

/-! ### Inside the room -/

/-- The convention has a position for the result. -/
theorem exists_mem_convention {m : Method} {r : Returns} (hr : ReturnsInMemory types m r) :
    ∃ place, .result place ∈ convention types m ∧
      (Position.result place).parameter = .result (resultName m) := by
  unfold convention
  cases herror : m.error with
  | none =>
    refine ⟨.leading, ?_, by rw [resultName, if_pos herror]; rfl⟩
    rw [if_pos ⟨rfl, hr.returnsRecord herror⟩]
    simp
  | some e =>
    have hboth : some e ≠ none ∧ m.returns ≠ none := by simp [hr.returns]
    refine ⟨.trailing, ?_, by rw [resultName_of_error (herror ▸ hboth.1)]; rfl⟩
    rw [if_pos hboth]
    simp

end Wasm

end Bindery
