import Bindery.Emit.Go.Wasm
import Bindery.Emit.JavaScript.Wrapper
import Bindery.Proofs.Schema
import Bindery.Proofs.Success
import Bindery.Proofs.TypeRef

/-!
# JavaScript calls what Go exports

A wrapper in JavaScript and the exported function in Go are made from the same operation
by two emitters that never look at each other. Both follow one calling convention, a
list of positions that is read off the operation (`convention`): in front a pointer to
the result if a record is returned without a status, behind a pointer to the result if
there is a status, and between them the parameters in order, two positions for a buffer
and one for anything else.

* `args_eq_convention` — JavaScript passes one argument for each position;
* `params_eq_convention` — Go declares one parameter for each position;
* `answers_of_method` — JavaScript does with the call what the answer of Go asks for;
* `wrapper_matches_export` — hence the two sides fit together (`Matching`).

The two sides sort schema types by functions of their own, which give one and the same
answer: `Cell.ofName?_eq` and `Value.ofName?_eq` say which.
-/

namespace Bindery

open JavaScript (Cell Arg Marshalled Outcome Wrapper ResultPlace)
open Go (Value WasmParam WasmAnswer WasmExport)

/-! ### Schema types by name -/

/-- JavaScript sees a number in an enumeration, a record in a record, and nothing in any
other name. -/
theorem JavaScript.Cell.ofName?_eq (types : Schema) (n : String) :
    Cell.ofName? types n =
      if types.isEnum n then some (.scalar .int32)
      else if types.isRecord n then some (.record n) else none := by
  rw [Cell.ofName?, Schema.isEnum, Schema.isRecord]
  cases types.get? n <;> rfl

/-- Go sees an `int32` in an enumeration, a record in a record, and nothing in any other
name. -/
theorem Go.Value.ofName?_eq (types : Schema) (n : String) :
    Value.ofName? types n =
      if types.isEnum n then some (.enum n .int32)
      else if types.isRecord n then some (.record n) else none := by
  rw [Value.ofName?, Schema.isEnum, Schema.isRecord]
  cases types.get? n <;> rfl

namespace Wasm

/-! ### The convention -/

/-- What is passed at one position of a call. -/
inductive Position where
  /-- Where the result goes. -/
  | result (place : ResultPlace)
  /-- The address of a text, of the elements of a buffer, or of a schema value. -/
  | pointer (p : Parameter)
  /-- The number of elements of a buffer. -/
  | length (p : Parameter)
  | handle (p : Parameter)
  /-- A scalar, or an enumeration by value. -/
  | number (p : Parameter) (q : Primitive)
deriving DecidableEq, Repr

/-- The argument that JavaScript passes. -/
def Position.argument : Position → Arg
  | result _ => .result
  | pointer p => .pointer (JavaScript.ptrName p)
  | length p => .length (JavaScript.lenName p)
  | handle p => .handle (JavaScript.identifier p.name)
  | number p .bool => .bool (JavaScript.identifier p.name)
  | number p _ => .number (JavaScript.identifier p.name)

/-- The parameter that Go declares. -/
def Position.parameter : Position → WasmParam
  | result .leading => .result "sret"
  | result .trailing => .result "out_result"
  | pointer p => .pointer (Go.identifier p.name)
  | length p => .length (p.name ++ "_len")
  | handle p => .handle (Go.identifier p.name)
  | number p q => .number q (Go.identifier p.name)

/-- The positions of a parameter. A schema type goes by address, but for an enumeration
that is handed over by value. -/
def positions (types : Schema) (p : Parameter) : List Position :=
  match p.typeRef? with
  | some (.buffer _) => [.pointer p, .length p]
  | some .string => [.pointer p]
  | some (.handle _) => [.handle p]
  | some (.primitive q) => [.number p q]
  | some (.qualified n) =>
    if types.isEnum n ∧ p.effectiveTransfer = .value then [.number p .int32] else [.pointer p]
  | none => []

/-- Whether a method returns a struct or table. -/
def returnsRecord (types : Schema) (m : Method) : Bool :=
  m.returns.any fun r => isQualifiedName r.type && types.isRecord r.type

/-- **The positions of a call**, in order. -/
def convention (types : Schema) (m : Method) : List Position :=
  (if m.error = none ∧ returnsRecord types m = true then [.result .leading] else [])
    ++ m.parameters.flatMap (positions types)
    ++ if m.error ≠ none ∧ m.returns ≠ none then [.result .trailing] else []

/-! ### Types of results -/

/-- A result is a record exactly when its text is the qualified name of one. -/
theorem isRecordType_eq (types : Schema) (ty : String) :
    Abi.isRecordType types ty = (isQualifiedName ty && types.isRecord ty) := by
  rw [Abi.isRecordType]
  cases hq : isQualifiedName ty with
  | true =>
    have ht : TypeRef.ofString? ty = some (.qualified ty) :=
      TypeRef.ofString?_text (t := .qualified ty) hq
    rw [ht]
    rfl
  | false =>
    -- a text that is read as a qualified name is one
    cases ht : TypeRef.ofString? ty with
    | none => rfl
    | some t =>
      cases t with
      | qualified n =>
        obtain ⟨rfl, hn⟩ := TypeRef.text_of_ofString? ht
        exact absurd (hq.symm.trans hn) Bool.false_ne_true
      | string | buffer _ | handle _ | primitive _ => rfl

/-! ### Parameters -/

/-- A schema type is passed by JavaScript as the convention says. -/
theorem marshalSchema_args {ctx : Context} {p : Parameter} {q : String} {part : Marshalled}
    (h : JavaScript.marshalSchema ctx p q = .ok part) :
    part.args = (if ctx.types.isEnum q ∧ p.effectiveTransfer = .value then
      [Position.number p .int32] else [.pointer p]).map Position.argument := by
  rw [JavaScript.marshalSchema, Cell.ofName?_eq] at h
  cases henum : ctx.types.isEnum q with
  | true =>
    rw [henum, if_pos rfl] at h
    cases htransfer : p.effectiveTransfer with
    | value =>
      rw [htransfer] at h
      obtain rfl := Except.ok.inj h
      rfl
    | ref | refMut =>
      -- an enumeration that is borrowed is written to memory first
      rw [htransfer] at h
      obtain ⟨size, -, hpart⟩ := bind_eq_ok_iff.mp h
      obtain rfl := pure_eq_ok_iff.mp hpart
      rfl
  | false =>
    -- what is no enumeration is a record, or there is no part at all
    rw [henum, if_neg Bool.false_ne_true] at h
    split at h
    · cases h
    · next cell hcell =>
      split at hcell
      · obtain rfl := Option.some.inj hcell
        obtain ⟨size, -, hpart⟩ := bind_eq_ok_iff.mp h
        obtain rfl := pure_eq_ok_iff.mp hpart
        rfl
      · cases hcell

/-- **A parameter in JavaScript.** -/
theorem marshal_args {ctx : Context} {p : Parameter} {part : Marshalled}
    (h : JavaScript.marshal ctx p = .ok part) :
    part.args = (positions ctx.types p).map Position.argument := by
  rw [JavaScript.marshal] at h
  obtain ⟨t, ht, h⟩ := bind_eq_ok_iff.mp h
  rw [classify_eq_ok_iff] at ht
  rw [positions, Parameter.typeRef?, ht]
  -- By the form of the type; a name of the schema has its own lemma.
  cases t with
  | string | buffer _ | handle _ =>
    obtain rfl := pure_eq_ok_iff.mp h
    rfl
  | primitive q =>
    cases q <;>
    · obtain rfl := pure_eq_ok_iff.mp h
      rfl
  | qualified q => exact marshalSchema_args h

/-- **A parameter in Go.** -/
theorem lower_eq {ctx : Context} {p : Parameter} {params : List WasmParam}
    (h : WasmParam.lower ctx p = .ok params) :
    params = (positions ctx.types p).map Position.parameter := by
  rw [WasmParam.lower] at h
  obtain ⟨t, ht, h⟩ := bind_eq_ok_iff.mp h
  rw [classify_eq_ok_iff] at ht
  rw [positions, Parameter.typeRef?, ht]
  cases t with
  | string | buffer _ | handle _ | primitive _ =>
    obtain rfl := pure_eq_ok_iff.mp h
    rfl
  | qualified q =>
    simp only [Value.ofName?_eq] at h ⊢
    cases henum : ctx.types.isEnum q with
    | true =>
      -- only the transfer by value makes a number of an enumeration
      rw [henum, if_pos rfl] at h
      cases htransfer : p.effectiveTransfer with
      | value | ref | refMut =>
        rw [htransfer] at h
        obtain rfl := pure_eq_ok_iff.mp h
        rfl
    | false =>
      rw [henum, if_neg Bool.false_ne_true] at h
      cases hrec : ctx.types.isRecord q with
      | true =>
        rw [hrec, if_pos rfl] at h
        obtain rfl := pure_eq_ok_iff.mp h
        rfl
      | false =>
        rw [hrec, if_neg Bool.false_ne_true] at h
        exact absurd h throw_ne_ok

/-- Members that are mapped one by one are mapped as a whole. -/
theorem flatMap_eq_map_flatMap {α β γ δ : Type} {xs : List α} {ys : List β} {g : β → List γ}
    {k : α → List δ} {f : δ → γ} (h : List.Forall₂ (fun x y => g y = (k x).map f) xs ys) :
    ys.flatMap g = (xs.flatMap k).map f := by
  induction h with
  | nil => rfl
  | cons hxy _ ih => rw [List.flatMap_cons, List.flatMap_cons, List.map_append, hxy, ih]

/-! ### Arguments and parameters -/

/-- The place of the result pointer in JavaScript. -/
theorem resultPlace?_map_fst (ctx : Context) (m : Method) :
    (JavaScript.resultPlace? ctx m).map (·.1) =
      if m.error = none ∧ returnsRecord ctx.types m = true then some .leading
      else if m.error ≠ none ∧ m.returns ≠ none then some .trailing else none := by
  rw [JavaScript.resultPlace?, returnsRecord]
  cases m.error with
  | none =>
    cases m.returns with
    | none => rfl
    | some r =>
      dsimp only
      rw [isRecordType_eq]
      cases h : (isQualifiedName r.type && ctx.types.isRecord r.type) <;> simp [h]
  | some e => cases m.returns <;> rfl

/-- The result pointer, if it stands at this place. -/
def resultAt (room : Option ResultPlace) (place : ResultPlace) : List Arg :=
  if room = some place then [.result] else []

/-- **The steps of a wrapper**: what each parameter takes, the room for the result, and what
is done with the call. -/
structure Steps (ctx : Context) (op : Operation) (w : Wrapper) (xs : List Marshalled)
    (size? : Option Nat) : Prop where
  parts : List.Forall₂ (fun p x => JavaScript.marshal ctx p = .ok x) op.method.parameters xs
  /-- There is room where there is a result pointer. -/
  room : size?.isSome = (JavaScript.resultPlace? ctx op.method).isSome
  outcome : JavaScript.outcomeOf ctx op.method = .ok w.outcome
  name : w.name = Naming.camelCase op.method.name
  params : w.params = op.method.parameters.map fun p => JavaScript.identifier p.name
  symbol : w.symbol = op.symbol ctx.apiName
  setup : w.setup = (if xs.any (·.usesAllocs) then [.allocs] else []) ++ xs.flatMap (·.setup)
    ++ (size?.map (JavaScript.Setup.reserve JavaScript.outPtr)).toList
  args : w.args = resultAt ((JavaScript.resultPlace? ctx op.method).map (·.1)) .leading
    ++ xs.flatMap (·.args)
    ++ resultAt ((JavaScript.resultPlace? ctx op.method).map (·.1)) .trailing
  writeBacks : w.writeBacks = xs.flatMap (·.writeBacks)
  frees : w.frees = xs.flatMap (·.frees) ++ (size?.map fun _ => JavaScript.outPtr).toList
  usesAllocs : w.usesAllocs = xs.any (·.usesAllocs)

theorem exists_steps_of_wrapper {ctx : Context} {op : Operation} {w : Wrapper}
    (h : Wrapper.ofOperation ctx op = .ok w) : ∃ xs size?, Steps ctx op w xs size? := by
  rw [Wrapper.ofOperation] at h
  simp only [bind_eq_ok_iff, mapM_eq_ok_iff] at h
  obtain ⟨parts, hparts, h⟩ := h
  split at h
  · -- no result in memory, so nothing is reserved for one
    next hplace =>
    simp only [bind_eq_ok_iff, pure_eq_ok_iff] at h
    obtain ⟨_, rfl, outcome, houtcome, rfl⟩ := h
    refine ⟨parts, none, ⟨hparts, ?_, houtcome, rfl, rfl, rfl, rfl, ?_, rfl, rfl, rfl⟩⟩
    · rw [hplace]
      rfl
    · rw [hplace]
      rfl
  · next place ty hplace =>
    simp only [bind_eq_ok_iff, pure_eq_ok_iff] at h
    obtain ⟨size, -, _, rfl, outcome, houtcome, rfl⟩ := h
    refine ⟨parts, some size, ⟨hparts, ?_, houtcome, rfl, rfl, rfl, rfl, ?_, rfl, rfl, rfl⟩⟩
    · rw [hplace]
      rfl
    · rw [hplace]
      cases place <;> rfl

/-- The parameters, the arguments and what is done with the call. -/
theorem exists_parts_of_wrapper {ctx : Context} {op : Operation} {w : Wrapper}
    (h : Wrapper.ofOperation ctx op = .ok w) :
    ∃ parts : List Marshalled,
      List.Forall₂ (fun p part => JavaScript.marshal ctx p = .ok part) op.method.parameters parts ∧
      JavaScript.outcomeOf ctx op.method = .ok w.outcome ∧ w.symbol = op.symbol ctx.apiName ∧
      w.args = resultAt ((JavaScript.resultPlace? ctx op.method).map (·.1)) .leading
        ++ parts.flatMap (·.args)
        ++ resultAt ((JavaScript.resultPlace? ctx op.method).map (·.1)) .trailing := by
  obtain ⟨xs, _, steps⟩ := exists_steps_of_wrapper h
  exact ⟨xs, steps.parts, steps.outcome, steps.symbol, steps.args⟩

/-- **JavaScript follows the convention.** -/
theorem args_eq_convention {ctx : Context} {op : Operation} {w : Wrapper}
    (h : Wrapper.ofOperation ctx op = .ok w) :
    w.args = (convention ctx.types op.method).map Position.argument := by
  obtain ⟨parts, hparts, -, -, hargs⟩ := exists_parts_of_wrapper h
  -- The parameters take the same positions on both sides, so the place for a result is what is
  -- left.
  have hmiddle : parts.flatMap (·.args) =
      (op.method.parameters.flatMap (positions ctx.types)).map Position.argument :=
    flatMap_eq_map_flatMap (hparts.imp fun p part hpart => marshal_args hpart)
  rw [hargs, hmiddle, resultPlace?_map_fst, convention, List.map_append, List.map_append]
  by_cases hlead : op.method.error = none ∧ returnsRecord ctx.types op.method = true
  · -- without a status there is nothing behind the parameters
    have htrail : ¬ (op.method.error ≠ none ∧ op.method.returns ≠ none) := fun ht => ht.1 hlead.1
    rw [if_pos hlead, if_pos hlead, if_neg htrail]
    rfl
  · rw [if_neg hlead, if_neg hlead]
    split <;> rfl

/-! ### Answers -/

/-- **An answer without a status** goes through the leading pointer if it is a record, and
is a value if not. -/
theorem ofText_cases {ctx : Context} {ty : String} {answer : WasmAnswer}
    (h : WasmAnswer.ofText ctx ty = .ok answer) :
    Abi.isRecordType ctx.types ty = true ∧ answer = .stored ∨
      Abi.isRecordType ctx.types ty = false ∧
        (answer = .handle ∨ ∃ q, answer = .number q) := by
  rw [WasmAnswer.ofText] at h
  obtain ⟨t, ht, h⟩ := bind_eq_ok_iff.mp h
  rw [classify_eq_ok_iff] at ht
  rw [Abi.isRecordType, ht]
  cases t with
  | string | buffer _ => exact absurd h throw_ne_ok
  | handle _ =>
    obtain rfl := pure_eq_ok_iff.mp h
    exact .inr ⟨rfl, .inl rfl⟩
  | primitive q =>
    obtain rfl := pure_eq_ok_iff.mp h
    exact .inr ⟨rfl, .inr ⟨q, rfl⟩⟩
  | qualified q =>
    simp only [Value.ofName?_eq] at h ⊢
    cases hrec : ctx.types.isRecord q with
    | true =>
      -- a record is no enumeration, so the first test of the name fails
      rw [Schema.isEnum_eq_false_of_isRecord hrec, if_neg Bool.false_ne_true, hrec, if_pos rfl] at h
      obtain rfl := pure_eq_ok_iff.mp h
      exact .inl ⟨rfl, rfl⟩
    | false =>
      rw [hrec, if_neg Bool.false_ne_true] at h
      cases henum : ctx.types.isEnum q with
      | true =>
        rw [henum, if_pos rfl] at h
        obtain rfl := pure_eq_ok_iff.mp h
        exact .inr ⟨rfl, .inr ⟨.int32, rfl⟩⟩
      | false =>
        rw [henum, if_neg Bool.false_ne_true] at h
        exact absurd h throw_ne_ok

/-- **What Go answers.** An error makes a status of the answer, and without one the answer
is that of the result. -/
theorem ofMethod_cases {ctx : Context} {m : Method} {answer : WasmAnswer}
    (h : WasmAnswer.ofMethod ctx m = .ok answer) :
    (∃ e, m.error = some e ∧ answer = .status) ∨
      (m.error = none ∧ m.returns = none ∧ answer = .void) ∨
      ∃ r, m.error = none ∧ m.returns = some r ∧
        (Abi.isRecordType ctx.types r.type = true ∧ answer = .stored ∨
          Abi.isRecordType ctx.types r.type = false ∧
            (answer = .handle ∨ ∃ q, answer = .number q)) := by
  rw [WasmAnswer.ofMethod] at h
  -- The error decides first, then whether there is a result, and then its form.
  cases herror : m.error with
  | some e =>
    rw [herror] at h
    exact .inl ⟨e, rfl, (Except.ok.inj h).symm⟩
  | none =>
    cases hreturns : m.returns with
    | none =>
      rw [herror, hreturns] at h
      exact .inr (.inl ⟨rfl, rfl, (Except.ok.inj h).symm⟩)
    | some r =>
      rw [herror, hreturns] at h
      exact .inr (.inr ⟨r, rfl, rfl, ofText_cases h⟩)

/-- **What JavaScript does with each answer of Go.** -/
inductive Answers : WasmAnswer → Outcome → Prop where
  | void : Answers .void .done
  | status : Answers .status .status
  | statusThen (read : String) : Answers .status (.statusThen read)
  | stored (read : String) : Answers .stored (.stored read)
  | handle (read : String) : Answers .handle (.direct read)
  | number (q : Primitive) (read : String) : Answers (.number q) (.direct read)

/-- The answer and what is done with it come from the same error and result. -/
theorem answers_of_method {ctx : Context} {m : Method} {answer : WasmAnswer} {outcome : Outcome}
    (hgo : WasmAnswer.ofMethod ctx m = .ok answer)
    (hjs : JavaScript.outcomeOf ctx m = .ok outcome) : Answers answer outcome := by
  rw [JavaScript.outcomeOf] at hjs
  rcases ofMethod_cases hgo with ⟨e, herror, rfl⟩ | ⟨herror, hreturns, rfl⟩ |
    ⟨r, herror, hreturns, hanswer⟩
  · -- with an error there is a status, whatever else comes back
    cases hreturns : m.returns with
    | none =>
      rw [herror, hreturns] at hjs
      obtain rfl := Except.ok.inj hjs
      exact .status
    | some r =>
      rw [herror, hreturns] at hjs
      obtain ⟨read, -, rfl⟩ := map_eq_ok_iff.mp hjs
      exact .statusThen read
  · rw [herror, hreturns] at hjs
    obtain rfl := Except.ok.inj hjs
    exact .void
  · -- both sides ask whether the result is a record
    rw [herror, hreturns] at hjs
    dsimp only at hjs
    rcases hanswer with ⟨hrec, rfl⟩ | ⟨hrec, hvalue⟩
    · rw [hrec, if_pos rfl] at hjs
      obtain ⟨read, -, rfl⟩ := map_eq_ok_iff.mp hjs
      exact .stored read
    · rw [hrec, if_neg Bool.false_ne_true] at hjs
      obtain ⟨read, -, rfl⟩ := map_eq_ok_iff.mp hjs
      rcases hvalue with rfl | ⟨q, rfl⟩
      · exact .handle read
      · exact .number q read

/-- Go declares the leading pointer exactly when the convention has it. -/
theorem eq_stored_iff {ctx : Context} {m : Method} {answer : WasmAnswer}
    (h : WasmAnswer.ofMethod ctx m = .ok answer) :
    answer = .stored ↔ m.error = none ∧ returnsRecord ctx.types m = true := by
  rw [returnsRecord]
  -- Stored is the one answer for a record that comes back without an error.
  rcases ofMethod_cases h with ⟨e, herror, rfl⟩ | ⟨herror, hreturns, rfl⟩ |
    ⟨r, herror, hreturns, hanswer⟩
  · rw [herror]
    exact ⟨nofun, nofun⟩
  · rw [hreturns]
    exact ⟨nofun, nofun⟩
  · rw [hreturns, Option.any_some, ← isRecordType_eq]
    rcases hanswer with ⟨hrec, rfl⟩ | ⟨hrec, hvalue⟩
    · exact ⟨fun _ => ⟨herror, hrec⟩, fun _ => rfl⟩
    · rw [hrec]
      rcases hvalue with rfl | ⟨q, rfl⟩ <;> exact ⟨nofun, nofun⟩

/-- An operation that can fail and has a result is one with an error and a result. -/
theorem shape_eq_fallibleValue_iff (m : Method) :
    m.shape = .fallibleValue ↔ m.error ≠ none ∧ m.returns ≠ none := by
  rw [Method.shape]
  cases m.error <;> cases m.returns <;> simp

/-- **The steps of an export.** -/
theorem exists_params_of_export {ctx : Context} {op : Operation} {e : WasmExport}
    (h : WasmExport.ofOperation ctx op = .ok e) :
    ∃ params : List (List WasmParam),
      List.Forall₂ (fun p ps => WasmParam.lower ctx p = .ok ps) op.method.parameters params ∧
      WasmAnswer.ofMethod ctx op.method = .ok e.answer ∧ e.symbol = op.symbol ctx.apiName ∧
      e.params = (if e.answer = .stored then [.result "sret"] else []) ++ params.flatten
        ++ if op.method.shape = .fallibleValue then [.result "out_result"] else [] := by
  rw [WasmExport.ofOperation] at h
  simp only [bind_eq_ok_iff, mapM_eq_ok_iff] at h
  obtain ⟨answer, hanswer, params, hparams, h⟩ := h
  refine ⟨params, hparams, ?_⟩
  -- the body differs from kind to kind, the declaration does not
  split at h
  case h_3 =>
    split at h
    all_goals
      obtain ⟨body, -, hbody⟩ := bind_eq_ok_iff.mp h
      obtain rfl := pure_eq_ok_iff.mp hbody
      exact ⟨hanswer, rfl, rfl⟩
  all_goals
    obtain ⟨body, -, hbody⟩ := bind_eq_ok_iff.mp h
    obtain rfl := pure_eq_ok_iff.mp hbody
    exact ⟨hanswer, rfl, rfl⟩

/-- **Go follows the convention.** -/
theorem params_eq_convention {ctx : Context} {op : Operation} {e : WasmExport}
    (h : WasmExport.ofOperation ctx op = .ok e) :
    e.params = (convention ctx.types op.method).map Position.parameter := by
  obtain ⟨params, hparams, hanswer, -, he⟩ := exists_params_of_export h
  have hmiddle : params.flatten =
      (op.method.parameters.flatMap (positions ctx.types)).map Position.parameter := by
    rw [← List.flatMap_id]
    exact flatMap_eq_map_flatMap (hparams.imp fun p ps hps => lower_eq hps)
  rw [he, hmiddle, convention, List.map_append, List.map_append]
  -- in front, the answer of Go decides what the convention asks of the result
  simp only [eq_stored_iff hanswer, shape_eq_fallibleValue_iff]
  congr 1
  · congr 1
    split <;> rfl
  · split <;> rfl

/-! ### What comes back -/

/-- What stands in front of the call, by the answer of Go. -/
def binding : WasmAnswer → String
  | .void | .stored => ""
  | .status => "const _rc = "
  | .handle | .number _ => "const _result = "

/-- The call with what stands in front of it, as a line of code. -/
def callLine (w : Wrapper) (front : String) : Line := { text := front ++ w.call ++ ";" }

/-- **JavaScript binds what Go answers.** The call is the first line, and what stands in
front of it tells the answers apart. -/
theorem head?_callLines_iff {w : Wrapper} {answer : WasmAnswer} (h : Answers answer w.outcome)
    {front : String} :
    w.callLines.head? = some (callLine w front) ↔ binding answer = front := by
  have hhead : w.callLines.head? = some (callLine w (binding answer)) := by
    rw [Wrapper.callLines]
    generalize w.outcome = outcome at h
    cases h <;> rfl
  rw [hhead, Option.some.injEq]
  constructor
  · intro hline
    have htext := congrArg Line.text hline
    simpa only [callLine, String.append_left_inj] using htext
  · rintro rfl
    rfl

theorem binding_eq_status_iff {answer : WasmAnswer} :
    binding answer = "const _rc = " ↔ answer = .status := by
  cases answer <;> simp [binding]

theorem binding_eq_value_iff {answer : WasmAnswer} :
    binding answer = "const _result = " ↔ answer = .handle ∨ ∃ q, answer = .number q := by
  cases answer <;> simp [binding]

theorem binding_eq_nothing_iff {answer : WasmAnswer} :
    binding answer = "" ↔ answer = .void ∨ answer = .stored := by
  cases answer <;> simp [binding]

/-- The status is checked exactly when Go answers with one. -/
theorem statusLines_prefix_iff {w : Wrapper} {answer : WasmAnswer}
    (h : Answers answer w.outcome) : w.statusLines <+: w.callLines ↔ answer = .status := by
  constructor
  · rintro ⟨rest, hrest⟩
    have hhead : w.callLines.head? = some (callLine w "const _rc = ") := by
      rw [← hrest]
      rfl
    -- With a status the lines that test it come first.
    exact binding_eq_status_iff.mp ((head?_callLines_iff h).mp hhead)
  · rintro rfl
    rw [Wrapper.callLines]
    generalize w.outcome = outcome at h
    cases h with
    | status => exact List.prefix_append _ _
    | statusThen read => exact (List.prefix_append _ _).trans (List.prefix_append _ _)

/-! ### The two sides together -/

/-- **A wrapper and an exported function that fit together.** -/
structure Matching (types : Schema) (m : Method) (w : Wrapper) (e : WasmExport) : Prop where
  /-- JavaScript passes one argument for each position of the convention. -/
  args : w.args = (convention types m).map Position.argument
  /-- Go declares one parameter for each position of the convention. -/
  params : e.params = (convention types m).map Position.parameter
  length : w.args.length = e.params.length
  call : w.call = "_wasm.exports." ++ e.symbol ++ "(" ++ Text.commaSep (w.args.map Arg.text) ++ ")"
  declaration : e.lines.take 2 = Code.lines ["//go:wasmexport " ++ e.symbol,
    "func " ++ e.symbol ++ "(" ++ Text.commaSep (e.params.map WasmParam.text) ++ ")"
      ++ e.answer.text ++ " \x7b"]
  /-- A buffer takes two positions, and every other parameter one. -/
  width : ∀ p ∈ m.parameters,
    (positions types p).length = if p.typeRef?.any (· matches .buffer _) then 2 else 1
  /-- A schema type goes by address on both sides or on none. -/
  schema : ∀ p ∈ m.parameters, ∀ n, p.typeRef? = some (.qualified n) →
    ∃ pos, positions types p = [pos] ∧
      (pos.argument = .pointer (JavaScript.ptrName p) ↔
        ¬ (types.isEnum n = true ∧ p.effectiveTransfer = .value)) ∧
      (pos.argument = .pointer (JavaScript.ptrName p) ↔
        pos.parameter.text = Go.identifier p.name ++ " uintptr")
  /-- A status is returned exactly when one is tested. -/
  status : e.answer = .status ↔ w.statusLines <+: w.callLines
  /-- A value is returned exactly when the call is used as one. -/
  value : (e.answer = .handle ∨ ∃ q, e.answer = .number q) ↔
    w.callLines.head? = some (callLine w "const _result = ")
  /-- Nothing is returned exactly when the call stands alone. -/
  nothing : (e.answer = .void ∨ e.answer = .stored) ↔ w.callLines.head? = some (callLine w "")

/-- A parameter that can be passed has a type. -/
theorem length_positions {ctx : Context} {p : Parameter} {part : Marshalled}
    (h : JavaScript.marshal ctx p = .ok part) :
    (positions ctx.types p).length = if p.typeRef?.any (· matches .buffer _) then 2 else 1 := by
  obtain ⟨t, ht, -⟩ := bind_eq_ok_iff.mp h
  rw [classify_eq_ok_iff] at ht
  rw [positions, Parameter.typeRef?, ht]
  cases t with
  | string | buffer _ | handle _ | primitive _ => rfl
  | qualified n =>
    dsimp only
    split <;> rfl

/-- A schema type is an address for JavaScript exactly when it is one for Go. -/
theorem positions_qualified (types : Schema) {p : Parameter} {n : String}
    (h : p.typeRef? = some (.qualified n)) :
    ∃ pos, positions types p = [pos] ∧
      (pos.argument = .pointer (JavaScript.ptrName p) ↔
        ¬ (types.isEnum n = true ∧ p.effectiveTransfer = .value)) ∧
      (pos.argument = .pointer (JavaScript.ptrName p) ↔
        pos.parameter.text = Go.identifier p.name ++ " uintptr") := by
  rw [positions, h]
  by_cases hvalue : types.isEnum n = true ∧ p.effectiveTransfer = .value
  · refine ⟨.number p .int32, if_pos hvalue, ⟨nofun, fun hnot => absurd hvalue hnot⟩, nofun, ?_⟩
    -- `int32` is no `uintptr`, whatever the name in front
    intro htext
    change Go.identifier p.name ++ " " ++ "int32" = Go.identifier p.name ++ " uintptr" at htext
    rw [String.append_assoc, String.append_right_inj] at htext
    exact absurd htext (by decide)
  · exact ⟨.pointer p, if_neg hvalue, ⟨fun _ => hvalue, fun _ => rfl⟩, fun _ => rfl, fun _ => rfl⟩

/-- **JavaScript calls what Go exports.** Whenever both sides of an operation are made,
they agree on the arguments position by position and on what comes back. -/
theorem wrapper_matches_export {ctx : Context} {op : Operation} {w : Wrapper} {e : WasmExport}
    (hjs : Wrapper.ofOperation ctx op = .ok w) (hgo : WasmExport.ofOperation ctx op = .ok e) :
    Matching ctx.types op.method w e := by
  obtain ⟨parts, hparts, houtcome, hsymbol, -⟩ := exists_parts_of_wrapper hjs
  obtain ⟨params, -, hanswer, hsymbol', -⟩ := exists_params_of_export hgo
  have hargs := args_eq_convention hjs
  have hparams := params_eq_convention hgo
  -- Both sides follow the one convention, which each has been compared with before.
  have hback : Answers e.answer w.outcome := answers_of_method hanswer houtcome
  refine ⟨hargs, hparams, ?_, ?_, rfl, ?_, ?_, ?_, ?_, ?_⟩
  · rw [hargs, hparams, List.length_map, List.length_map]
  · rw [hsymbol', ← hsymbol]
    rfl
  · intro p hp
    obtain ⟨part, -, hpart⟩ := exists_mem_of_forall₂ hparts hp
    exact length_positions hpart
  · intro p _ n hn
    exact positions_qualified ctx.types hn
  · exact (statusLines_prefix_iff hback).symm
  · exact ((head?_callLines_iff hback).trans binding_eq_value_iff).symm
  · exact ((head?_callLines_iff hback).trans binding_eq_nothing_iff).symm

/-- A schema with an enumeration, an enumeration of errors and a record. -/
def drawContext : Context where
  api := { metadata := { name := "canvas", version := "1.0.0", language := .go }, schemas := [],
           interfaces := [] }
  types := ((Keyed.empty.insert "Mode" { kind := .enum }).insert
    "Fault" { kind := .enum, values := [⟨"Ok", 0⟩, ⟨"Failed", 3⟩] }).insert
    "Box" { kind := .struct, fields := [⟨"width", .primitive .float32⟩] }

/-- A method with parameters of all kinds, a status and a result. -/
def drawOperation : Operation where
  interface := { name := "Painter" }
  kind := .method
  method :=
    { name := "draw"
      parameters := [⟨"canvas", "handle:Canvas", none, none⟩, ⟨"title", "string", none, none⟩,
        ⟨"data", "buffer<uint8>", some .ref, none⟩, ⟨"mode", "Mode", none, none⟩,
        ⟨"clip", "Box", some .refMut, none⟩, ⟨"wait", "bool", none, none⟩]
      returns := some { type := "Mode" }
      error := some "Fault" }

theorem wrapper_matches_export_draw :
    ∃ w e, Wrapper.ofOperation drawContext drawOperation = .ok w ∧
      WasmExport.ofOperation drawContext drawOperation = .ok e ∧
      Matching drawContext.types drawOperation.method w e := by
  have hsize : Abi.valueSize drawContext.types "Box" = .ok 4 := by cbv
  have hclass : Abi.classify "Box" = .ok (.qualified "Box") := by decide +kernel
  -- the one parameter that needs a layout
  have hclip : JavaScript.marshal drawContext ⟨"clip", "Box", some .refMut, none⟩ = .ok
      { setup := [.reserve "_clipPtr" 4, .store (.record "Box") "_clipPtr" "clip"]
        args := [.pointer "_clipPtr"]
        frees := ["_clipPtr"]
        writeBacks := [.record "Box" "_clipPtr" "clip"]
        usesAllocs := true } := by
    simp only [JavaScript.marshal, hclass, JavaScript.marshalSchema]
    rw [hsize]
    decide +kernel
  obtain ⟨w, hjs⟩ : ∃ w, Wrapper.ofOperation drawContext drawOperation = .ok w := by
    apply exists_ok_of_isOk
    simp only [Wrapper.ofOperation, drawOperation, List.mapM_cons, hclip]
    decide +kernel
  obtain ⟨e, hgo⟩ : ∃ e, WasmExport.ofOperation drawContext drawOperation = .ok e :=
    exists_ok_of_isOk (by decide +kernel)
  exact ⟨w, e, hjs, hgo, wrapper_matches_export hjs hgo⟩

end Wasm

end Bindery
