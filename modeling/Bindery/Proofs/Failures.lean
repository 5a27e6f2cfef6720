import Bindery.Emit.Build
import Bindery.Emit.Cpp
import Bindery.Emit.Go.Wasm
import Bindery.Proofs.Emission.Go
import Bindery.Proofs.Typedefs

/-!
# Failures without a better name

An exported function may fail before the code behind it has had a say: a stub has nothing
behind it, a constructor finds no instance, a key belongs to no handle, an error has no code.
Generated code then reports one value of the error type, the same in all languages
(`ReportedAs`). It crosses the C interface as a status of 32 bits, where zero means success.

The value is the first one called `InternalError`, and only without such a value the first
one that is not zero (`failureValue_eq_ok_iff`). The second search looks at the number, the
first one does not, and neither asks for a number of 32 bits. Hence a failure is reported as
success exactly when `InternalError` itself is zero, or when the number leaves nothing of
itself in the status (`status_eq_zero_iff`). `failure_signals_iff` says which error types are
safe, and `failures_reported_as_success` shows two that are not.
-/

namespace Bindery

/-! ### Statuses -/

/-- The number is one of 32 bits with a sign. -/
def IsInt32 (n : Int) : Prop := -2 ^ 31 ≤ n ∧ n < 2 ^ 31

instance (n : Int) : Decidable (IsInt32 n) := inferInstanceAs (Decidable (_ ∧ _))

/-- A status holds exactly the numbers of 32 bits. -/
theorem toInt_status_eq_iff {n : Int} : (Int32.ofInt n).toInt = n ↔ IsInt32 n := by
  constructor
  · intro h
    rw [← h]
    exact ⟨Int32.le_toInt _, Int32.toInt_lt _⟩
  · rintro ⟨hlow, hhigh⟩
    exact Int32.toInt_ofInt_of_le hlow hhigh

/-- A status is zero when the number leaves nothing of itself in 32 bits. -/
theorem status_eq_zero_iff {n : Int} : Int32.ofInt n = 0 ↔ (2 ^ 32 : Int) ∣ n := by
  rw [← Int32.toInt_inj, Int32.toInt_ofInt]
  change n.bmod 4294967296 = 0 ↔ _
  rw [← Int.dvd_iff_bmod_eq_zero]
  norm_num

/-- **The number signals an error as a status**: it is not zero, and the status holds it. -/
def SignalsError (n : Int) : Prop := n ≠ 0 ∧ (Int32.ofInt n).toInt = n

theorem SignalsError.status_ne_zero {n : Int} (h : SignalsError n) : Int32.ofInt n ≠ 0 := by
  intro hzero
  have hn := h.2
  rw [hzero] at hn
  exact h.1 hn.symm

/-! ### The value that is found -/

/-- **The first member of a list with a property.** -/
def IsFirst {α : Type} (p : α → Prop) (xs : List α) (x : α) : Prop :=
  ∃ before after, xs = before ++ x :: after ∧ p x ∧ ∀ y ∈ before, ¬ p y

theorem find?_eq_some_iff_isFirst {α : Type} {p : α → Prop} [DecidablePred p] {xs : List α}
    {x : α} : xs.find? (fun y => decide (p y)) = some x ↔ IsFirst p xs x := by
  rw [List.find?_eq_some_iff_append]
  simp only [decide_eq_true_eq, Bool.not_eq_true', decide_eq_false_iff_not]
  constructor
  · rintro ⟨hx, before, after, hxs, hbefore⟩
    exact ⟨before, after, hxs, hx, hbefore⟩
  · rintro ⟨before, after, hxs, hx, hbefore⟩
    exact ⟨hx, before, after, hxs, hbefore⟩

variable {α : Type} {p : α → Prop} {xs : List α} {x y : α}

theorem IsFirst.mem (h : IsFirst p xs x) : x ∈ xs := by
  obtain ⟨before, after, rfl, -, -⟩ := h
  exact List.mem_append_right _ List.mem_cons_self

theorem IsFirst.prop (h : IsFirst p xs x) : p x := by
  obtain ⟨before, after, -, hx, -⟩ := h
  exact hx

/-- There is only one first member. -/
theorem IsFirst.unique (hx : IsFirst p xs x) (hy : IsFirst p xs y) : x = y := by
  classical
  rw [← find?_eq_some_iff_isFirst] at hx hy
  exact Option.some.inj (hx.symm.trans hy)

/-- The value goes by the name that is preferred for failures. -/
def EnumValue.IsInternal (v : EnumValue) : Prop := v.name = "InternalError"

instance : DecidablePred EnumValue.IsInternal := fun v => inferInstanceAs (Decidable (v.name = _))

namespace Context

variable {ctx : Context} {e : String} {v : EnumValue}

/-- **Which value reports a failure**: the first one called `InternalError`, and if there is
none, the first one that is not zero. -/
theorem failureValue_eq_ok_iff {d : TypeDef} (hd : ctx.types.get? e = some d) :
    ctx.failureValue e = .ok v ↔
      IsFirst EnumValue.IsInternal d.values v ∨
        (∀ w ∈ d.values, ¬ w.IsInternal) ∧ IsFirst (·.value ≠ 0) d.values v := by
  have hname : (fun w : EnumValue => w.name == "InternalError") = fun w => decide w.IsInternal :=
    rfl
  rw [failureValue, typeDef, hd, hname, ← find?_eq_some_iff_isFirst, ← find?_eq_some_iff_isFirst]
  simp only [bind, Except.bind, Option.orElse_eq_orElse, Option.orElse_eq_or]
  cases hinternal : d.values.find? fun w => decide w.IsInternal with
  | some w =>
    -- there is a value of that name, so the second search is not made
    obtain ⟨hw, -⟩ := List.find?_eq_some_iff_append.mp hinternal
    have hmem : w ∈ d.values := List.mem_of_find?_eq_some hinternal
    have hsome : ¬ ∀ w ∈ d.values, ¬ w.IsInternal := fun h => h w hmem (of_decide_eq_true hw)
    simp [hsome]
  | none =>
    have hnone : ∀ w ∈ d.values, ¬ w.IsInternal := by
      simpa using List.find?_eq_none.mp hinternal
    rw [or_iff_right (Option.some_ne_none v).symm, and_iff_right hnone]
    cases d.values.find? fun w => decide (w.value ≠ 0) <;> simp

/-- The C constant of the value that reports a failure. -/
theorem failureConstant_eq (h : ctx.failureValue e = .ok v) :
    ctx.failureConstant e = .ok (Naming.cTypeName e ++ "_" ++ v.name) := by
  rw [failureConstant, h]
  rfl

theorem failureCode_eq (h : ctx.failureValue e = .ok v) {m : Method} (hm : m.error = some e) :
    Go.failureCode ctx m = .ok v.value := by
  rw [Go.failureCode, hm]
  change (ctx.failureValue e).map (·.value) = _
  rw [h]
  rfl

end Context

/-! ### Where the value is reported -/

/-- **Generated code reports failures of an error type with one value.** -/
structure ReportedAs (ctx : Context) (e : String) (v : EnumValue) : Prop where
  /-- The header gives the constant its number. -/
  constant : ∃ line ∈ Abi.schemaTypedefs ctx.types,
    line.text = Naming.cTypeName e ++ "_" ++ v.name ++ " = " ++ toString v.value ∨
      line.text = Naming.cTypeName e ++ "_" ++ v.name ++ " = " ++ toString v.value ++ ","
  /-- A stub in C drops its arguments and returns the constant. -/
  stub : ∀ op lines, op.method.error = some e → Build.stubLines ctx op = .ok lines →
    ∃ s : Abi.Signature, lines = s.lines (some (Naming.exportMacro ctx.apiName)) " \x7b"
      ++ Code.indent (Code.lines (
        ["/* TODO: implement " ++ op.interface.name ++ "." ++ op.method.name ++ " */"]
          ++ s.argNames.map (fun n => "(void)" ++ n ++ ";")
          ++ ["return " ++ (Naming.cTypeName e ++ "_" ++ v.name) ++ ";"]))
      ++ Code.lines ["\x7d", ""]
  /-- A constructor in C++ returns the constant when it has no instance. -/
  shim : ∀ op lines, op.kind = .constructor → op.method.error = some e →
    Cpp.shimBody ctx op = .ok lines →
    ∃ front back, lines = front
      ++ Code.block "if (!instance)"
        (Code.lines ["return " ++ (Naming.cTypeName e ++ "_" ++ v.name) ++ ";"])
      ++ back
  /-- A function of the cgo shim returns the number when the handle is of no use, and gives
  it for an error without a code. -/
  cgo : ∀ op x, Go.IsDispatched op → op.method.error = some e →
    Go.CgoExport.ofOperation ctx op = .ok x →
    ∃ front middle back, x.body = front
      ++ Code.block "if !ok" (Code.lines ["return C.int32_t(" ++ toString v.value ++ ")"])
      ++ middle ++ Go.errorCheck v.value ++ back
  /-- So does a function of the WebAssembly module. -/
  wasm : ∀ op x, Go.IsDispatched op → op.method.error = some e →
    Go.WasmExport.ofOperation ctx op = .ok x →
    ∃ front middle back, x.body = front
      ++ Code.block "if !ok" (Code.lines ["return " ++ toString v.value])
      ++ middle ++ Go.errorCheck v.value ++ back

section Reported

variable {ctx : Context} {e : String} {v : EnumValue}

/-- The line of a value in the C definition of its enumeration. -/
theorem exists_enumeratorLine (cName : String) {vs : List EnumValue} (h : v ∈ vs) :
    ∃ line ∈ Abi.enumeratorLines cName vs,
      line.text = cName ++ "_" ++ v.name ++ " = " ++ toString v.value ∨
        line.text = cName ++ "_" ++ v.name ++ " = " ++ toString v.value ++ "," := by
  induction vs with
  | nil => cases h
  | cons w ws ih =>
    -- the last value has no comma behind it
    cases ws with
    | nil =>
      obtain rfl := List.mem_singleton.mp h
      exact ⟨_, List.mem_singleton_self _, .inl rfl⟩
    | cons u us =>
      rw [Abi.enumeratorLines]
      rcases List.mem_cons.mp h with rfl | h
      · exact ⟨_, List.mem_cons_self, .inr rfl⟩
      · obtain ⟨line, hline, htext⟩ := ih h
        exact ⟨line, List.mem_cons_of_mem _ hline, htext⟩

/-- The line of a value in the header. -/
theorem exists_constantLine {types : Schema} {d : TypeDef} (hd : types.get? e = some d)
    (henum : d.isEnum = true) (hv : v ∈ d.values) :
    ∃ line ∈ Abi.schemaTypedefs types,
      line.text = Naming.cTypeName e ++ "_" ++ v.name ++ " = " ++ toString v.value ∨
        line.text = Naming.cTypeName e ++ "_" ++ v.name ++ " = " ++ toString v.value ++ "," := by
  obtain ⟨line, hline, htext⟩ := exists_enumeratorLine (Naming.cTypeName e) hv
  refine ⟨{ line with depth := line.depth + 1 }, ?_, htext⟩
  rw [Abi.schemaTypedefs, List.mem_flatMap]
  refine ⟨(e, d), Abi.mem_typedefOrder_iff.mpr ⟨hd, .inl henum⟩, ?_⟩
  rw [Abi.typedefLines, if_pos henum]
  refine List.mem_append_left _ (List.mem_append_left _ (List.mem_cons_of_mem _ ?_))
  exact List.mem_map_of_mem hline

/-- The check of the handle and the check of the error, in the body of a function that
dispatches. -/
theorem exists_bailOut {head bail release locals call back check last : List Line} :
    ∃ front middle tail, head ++ bail ++ release ++ locals ++ (call ++ back ++ check ++ last) =
      front ++ bail ++ middle ++ check ++ tail :=
  ⟨head, release ++ locals ++ call ++ back, last, by simp only [List.append_assoc]⟩

variable (h : ctx.failureValue e = .ok v)

include h

theorem stub_reports {op : Operation} {lines : List Line} (hop : op.method.error = some e)
    (hlines : Build.stubLines ctx op = .ok lines) :
    ∃ s : Abi.Signature, lines = s.lines (some (Naming.exportMacro ctx.apiName)) " \x7b"
      ++ Code.indent (Code.lines (
        ["/* TODO: implement " ++ op.interface.name ++ "." ++ op.method.name ++ " */"]
          ++ s.argNames.map (fun n => "(void)" ++ n ++ ";")
          ++ ["return " ++ (Naming.cTypeName e ++ "_" ++ v.name) ++ ";"]))
      ++ Code.lines ["\x7d", ""] := by
  rw [Build.stubLines] at hlines
  obtain ⟨s, -, hlines⟩ := bind_eq_ok_iff.mp hlines
  obtain ⟨answer, hanswer, hlines⟩ := bind_eq_ok_iff.mp hlines
  rw [Build.stubReturn, hop] at hanswer
  dsimp only at hanswer
  rw [Context.failureConstant_eq h] at hanswer
  obtain rfl := Except.ok.inj hanswer
  obtain rfl := pure_eq_ok_iff.mp hlines
  exact ⟨s, rfl⟩

theorem shim_reports {op : Operation} {lines : List Line} (hkind : op.kind = .constructor)
    (hop : op.method.error = some e) (hlines : Cpp.shimBody ctx op = .ok lines) :
    ∃ front back, lines = front
      ++ Code.block "if (!instance)"
        (Code.lines ["return " ++ (Naming.cTypeName e ++ "_" ++ v.name) ++ ";"])
      ++ back := by
  rw [Cpp.shimBody, hkind] at hlines
  dsimp only at hlines
  -- Without a handle to make there is no shim; with one the failure is returned before anything
  -- else.
  cases hhandle : op.method.returnedHandle? with
  | none =>
    rw [hhandle] at hlines
    cases hlines
  | some handle =>
    rw [hhandle] at hlines
    obtain ⟨failure, hfailure, hlines⟩ := bind_eq_ok_iff.mp hlines
    rw [Cpp.failureText, hop] at hfailure
    dsimp only at hfailure
    rw [Context.failureConstant_eq h] at hfailure
    obtain rfl := Except.ok.inj hfailure
    obtain rfl := pure_eq_ok_iff.mp hlines
    exact ⟨_, _, rfl⟩

theorem cgoDispatch_reports {op : Operation} {body : List Line} (hop : op.method.error = some e)
    (hbody : Go.cgoDispatch ctx op = .ok body) :
    ∃ front middle back, body = front
      ++ Code.block "if !ok" (Code.lines ["return C.int32_t(" ++ toString v.value ++ ")"])
      ++ middle ++ Go.errorCheck v.value ++ back := by
  have hcode := Context.failureCode_eq h hop
  -- The error type has the failure as its code, so it is what both ways out return.
  rw [Go.cgoDispatch, Go.cgoBail, hop, hcode] at hbody
  obtain ⟨bail, hbail, hbody⟩ := bind_eq_ok_iff.mp hbody
  obtain rfl := Except.ok.inj hbail
  obtain ⟨passed, -, hbody⟩ := bind_eq_ok_iff.mp hbody
  obtain ⟨fallback, hfallback, hbody⟩ := bind_eq_ok_iff.mp hbody
  obtain rfl := Except.ok.inj hfallback
  dsimp only at hbody
  cases hreturns : op.method.returns with
  | none =>
    rw [hreturns] at hbody
    obtain rfl := pure_eq_ok_iff.mp hbody
    exact exists_bailOut
  | some r =>
    rw [hreturns] at hbody
    obtain ⟨store, -, hbody⟩ := bind_eq_ok_iff.mp hbody
    obtain rfl := pure_eq_ok_iff.mp hbody
    exact exists_bailOut

theorem wasmDispatch_reports {op : Operation} {body : List Line} (hop : op.method.error = some e)
    (hbody : Go.wasmDispatch ctx op .status = .ok body) :
    ∃ front middle back, body = front
      ++ Code.block "if !ok" (Code.lines ["return " ++ toString v.value])
      ++ middle ++ Go.errorCheck v.value ++ back := by
  have hcode := Context.failureCode_eq h hop
  -- As in the exports by way of C, with the plain number in the place of the cast one.
  rw [Go.wasmDispatch, Go.wasmBail, hop, hcode] at hbody
  obtain ⟨bail, hbail, hbody⟩ := bind_eq_ok_iff.mp hbody
  obtain rfl := Except.ok.inj hbail
  obtain ⟨passed, -, hbody⟩ := bind_eq_ok_iff.mp hbody
  obtain ⟨fallback, hfallback, hbody⟩ := bind_eq_ok_iff.mp hbody
  obtain rfl := Except.ok.inj hfallback
  dsimp only at hbody
  cases hreturns : op.method.returns with
  | none =>
    rw [hreturns] at hbody
    obtain rfl := pure_eq_ok_iff.mp hbody
    exact exists_bailOut
  | some r =>
    rw [hreturns] at hbody
    obtain ⟨store, -, hbody⟩ := bind_eq_ok_iff.mp hbody
    obtain rfl := pure_eq_ok_iff.mp hbody
    exact exists_bailOut

/-- **All generated code reports the failure with the value that is found.** -/
theorem reportedAs {d : TypeDef} (hd : ctx.types.get? e = some d) (henum : d.isEnum = true)
    (hv : v ∈ d.values) : ReportedAs ctx e v where
  constant := exists_constantLine hd henum hv
  stub op lines hop hlines := stub_reports h hop hlines
  shim op lines hkind hop hlines := shim_reports h hkind hop hlines
  -- the body of an export that is dispatched reports it
  cgo op x hdispatched hop hx := by
    rw [Go.CgoExport.ofOperation, hdispatched.1] at hx
    obtain ⟨⟨params, answer⟩, -, hx⟩ := bind_eq_ok_iff.mp hx
    dsimp only at hx
    rw [if_pos hdispatched.2] at hx
    obtain ⟨body, hbody, hx⟩ := bind_eq_ok_iff.mp hx
    obtain rfl := pure_eq_ok_iff.mp hx
    exact cgoDispatch_reports h hop hbody
  wasm op x hdispatched hop hx := by
    have hanswer : Go.WasmAnswer.ofMethod ctx op.method = .ok .status := by
      rw [Go.WasmAnswer.ofMethod, hop]
    rw [Go.WasmExport.ofOperation, hdispatched.1, hanswer] at hx
    obtain ⟨answer, hstatus, hx⟩ := bind_eq_ok_iff.mp hx
    obtain rfl := Except.ok.inj hstatus
    obtain ⟨params, -, hx⟩ := bind_eq_ok_iff.mp hx
    dsimp only at hx
    rw [if_pos hdispatched.2] at hx
    obtain ⟨body, hbody, hx⟩ := bind_eq_ok_iff.mp hx
    obtain rfl := pure_eq_ok_iff.mp hx
    exact wasmDispatch_reports h hop hbody

end Reported

/-! ### Which error types are safe -/

/-- **The enumeration is safe to report failures with.** The value called `InternalError` is a
status other than zero, and without such a value the first one that is not zero is a status. -/
structure TypeDef.SignalsFailure (d : TypeDef) : Prop where
  internal : ∀ w, IsFirst EnumValue.IsInternal d.values w → w.value ≠ 0 ∧ IsInt32 w.value
  other : (∀ w ∈ d.values, ¬ w.IsInternal) →
    ∀ w, IsFirst (·.value ≠ 0) d.values w → IsInt32 w.value

/-- **A failure is reported as one exactly when the error type is safe.** The value is one of
the error type, it is zero only if `InternalError` is, and all generated code reports it. -/
theorem failure_signals_iff {ctx : Context} {e : String} {d : TypeDef} {v : EnumValue}
    (hd : ctx.types.get? e = some d) (henum : d.isEnum = true)
    (h : ctx.failureValue e = .ok v) :
    v ∈ d.values ∧
      (v.value = 0 ↔ IsFirst EnumValue.IsInternal d.values ⟨"InternalError", 0⟩) ∧
      (SignalsError v.value ↔ d.SignalsFailure) ∧
      (d.SignalsFailure → Int32.ofInt v.value ≠ 0) ∧
      ReportedAs ctx e v := by
  have hsignals : SignalsError v.value ↔ v.value ≠ 0 ∧ IsInt32 v.value :=
    and_congr_right' toInt_status_eq_iff
  have hmain : v ∈ d.values ∧
      (v.value = 0 ↔ IsFirst EnumValue.IsInternal d.values ⟨"InternalError", 0⟩) ∧
      (SignalsError v.value ↔ d.SignalsFailure) := by
    rcases (Context.failureValue_eq_ok_iff hd).mp h with hfirst | ⟨hnone, hfirst⟩
    · -- the value is the one called `InternalError`
      refine ⟨hfirst.mem, ⟨fun hzero => ?_, fun hzero => ?_⟩, ?_⟩
      · have hv : v = ⟨"InternalError", 0⟩ := by
          cases v
          exact congrArg₂ EnumValue.mk hfirst.prop hzero
        rwa [← hv]
      · rw [hfirst.unique hzero]
      · rw [hsignals]
        refine ⟨fun hv => ⟨fun w hw => ?_, fun hno => ?_⟩, fun hd => hd.internal v hfirst⟩
        · rwa [← hfirst.unique hw]
        · exact absurd hfirst.prop (hno v hfirst.mem)
    · -- no value is called so, and the value is not zero
      refine ⟨hfirst.mem, iff_of_false hfirst.prop fun hzero => ?_, ?_⟩
      · exact hnone _ hzero.mem rfl
      · rw [hsignals, and_iff_right hfirst.prop]
        refine ⟨fun hv => ⟨fun w hw => ?_, fun _ w hw => ?_⟩, fun hd => hd.other hnone v hfirst⟩
        · exact absurd hw.prop (hnone w hw.mem)
        · rwa [← hfirst.unique hw]
  obtain ⟨hmem, hzero, hsafe⟩ := hmain
  exact ⟨hmem, hzero, hsafe, fun hd => (hsafe.mpr hd).status_ne_zero, reportedAs h hd henum hmem⟩

/-- A kiln that may fail to be built and to be fired. -/
def kilnInterface : Interface where
  name := "kiln"
  constructors := [
    { name := "create", returns := some { type := "handle:Kiln" }, error := some "Outcome" }]
  methods := [
    { name := "fire", parameters := [{ name := "kiln", type := "handle:Kiln" }],
      error := some "Outcome" }]

/-- The kiln with the values of its error type. -/
def kilnContext (values : List EnumValue) : Context where
  api :=
    { metadata := { name := "demo", version := "1.0.0", language := .cpp }
      schemas := ["demo.fbs"]
      handles := [{ name := "Kiln" }]
      interfaces := [kilnInterface] }
  types := Keyed.empty.insert "Outcome" { kind := .enum, values }

theorem failure_signals_kiln :
    (kilnContext [⟨"Ok", 0⟩, ⟨"Cracked", 1⟩, ⟨"InternalError", 99⟩]).failureValue "Outcome" =
        .ok ⟨"InternalError", 99⟩ ∧
      ¬ IsFirst EnumValue.IsInternal [⟨"Ok", 0⟩, ⟨"Cracked", 1⟩, ⟨"InternalError", 99⟩]
        ⟨"InternalError", 0⟩ ∧
      TypeDef.SignalsFailure
        { kind := .enum, values := [⟨"Ok", 0⟩, ⟨"Cracked", 1⟩, ⟨"InternalError", 99⟩] } ∧
      ReportedAs (kilnContext [⟨"Ok", 0⟩, ⟨"Cracked", 1⟩, ⟨"InternalError", 99⟩]) "Outcome"
        ⟨"InternalError", 99⟩ := by
  have h : (kilnContext [⟨"Ok", 0⟩, ⟨"Cracked", 1⟩, ⟨"InternalError", 99⟩]).failureValue
      "Outcome" = .ok ⟨"InternalError", 99⟩ := by decide
  obtain ⟨-, hzero, hsafe, -, hreported⟩ := failure_signals_iff
    (d := { kind := .enum, values := [⟨"Ok", 0⟩, ⟨"Cracked", 1⟩, ⟨"InternalError", 99⟩] })
    (by decide) (by decide) h
  exact ⟨h, fun hinternal => absurd (hzero.mpr hinternal) (by decide),
    hsafe.mp ⟨by decide, by decide⟩, hreported⟩

/-- A value called `InternalError` that is zero is reported all the same, although the next
one would signal an error; so is a number of which 32 bits keep nothing. -/
theorem failures_reported_as_success :
    (kilnContext [⟨"InternalError", 0⟩, ⟨"Cracked", 1⟩]).api.validate
        (some (kilnContext [⟨"InternalError", 0⟩, ⟨"Cracked", 1⟩]).types) = [] ∧
      (kilnContext [⟨"InternalError", 0⟩, ⟨"Cracked", 1⟩]).failureValue "Outcome" =
        .ok ⟨"InternalError", 0⟩ ∧
      (∃ body, Cpp.shimBody (kilnContext [⟨"InternalError", 0⟩, ⟨"Cracked", 1⟩])
          ⟨kilnInterface, .constructor, kilnInterface.constructors.head (by decide)⟩ = .ok body ∧
        ⟨1, "return Outcome_InternalError;"⟩ ∈ body) ∧
      ⟨1, "Outcome_InternalError = 0,"⟩ ∈ Abi.schemaTypedefs
        (kilnContext [⟨"InternalError", 0⟩, ⟨"Cracked", 1⟩]).types ∧
      (kilnContext [⟨"Ok", 0⟩, ⟨"Far", 4294967296⟩]).failureValue "Outcome" =
        .ok ⟨"Far", 4294967296⟩ ∧
      Int32.ofInt 4294967296 = 0 := by
  refine ⟨by decide, by decide, ⟨_, rfl, ?_⟩, by decide +kernel, by decide, by decide⟩
  decide +kernel

end Bindery
