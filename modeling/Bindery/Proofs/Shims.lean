import Bindery.Emit.Go
import Bindery.Proofs.Layout.Declarations
import Bindery.Proofs.Operations

/-!
# Three definitions of an exported function

The header declares a function for every operation, and the function is defined once more
by the cgo shim or by the Rust exports. Each of the three lowers the parameters of the
operation on its own. A linker compares symbols and nothing else, so a difference between
the three would show as corrupted arguments at run time.

The three are compared parameter by parameter:

* `SameType` — what a parameter may be: a text, the elements of a buffer or their length, a
  handle, a scalar of the same row of the table, a schema type or a pointer to one. The
  shim does not tell constant data from other data, so only C and Rust are compared in that;
* `SameParams` — the parameters in order, with a pointer for the result at the end exactly
  when the operation passes its result through one;
* `SameFunction` — symbol, parameters and answer.

`sameFunction_of_lowered` puts them together: whenever the three exist, they are the same function.
-/

namespace Bindery

open Abi

/-! ### Types -/

/-- **One type that crosses as a whole**, in C and in Rust. -/
inductive SameValue : ValueType → Rust.Ty → Prop
  | handle (name : String) : SameValue (.handle name) .handle
  | primitive (p : Primitive) : SameValue (.primitive p) (.primitive p)
  | schema (name ident : String) (spelled : Rust.typeName name = .ok ident) :
    SameValue (.schema name) (.schema ident)

/-- **One parameter type** in C, in the cgo shim and in Rust. -/
inductive SameType : ArgType → Go.CgoType → Rust.Ty → Prop
  | text : SameType .text .chars (.pointer false .cChar)
  | elements (p : Primitive) (writable : Bool) :
    SameType (.elements p writable) (.elements p) (.pointer writable (.primitive p))
  | length : SameType .length .length (.primitive .uint32)
  | handle (name : String) : SameType (.value (.handle name)) (.handle name) .handle
  | primitive (p : Primitive) : SameType (.value (.primitive p)) (.scalar p) (.primitive p)
  | schema (name ident : String) (spelled : Rust.typeName name = .ok ident) :
    SameType (.value (.schema name)) (.schema name) (.schema ident)
  | pointer (name ident : String) (writable : Bool) (spelled : Rust.typeName name = .ok ident) :
    SameType (.pointer name writable) (.pointer name) (.pointer writable (.schema ident))

/-- **The parameters of a function**, position by position, and the pointer for the result
at the end if the operation `m` passes its result through one. -/
inductive SameParams (m : Method) :
    List Param → List Go.CgoParam → List Rust.Binding → Prop
  | nil (absent : ¬ PassesResult m) : SameParams m [] [] []
  | result {v : ValueType} {t : Rust.Ty} (present : PassesResult m) (same : SameValue v t) :
    SameParams m [⟨.result v, outName⟩] [⟨outName, .result v⟩] [⟨outName, .pointer true t⟩]
  | cons {p : Param} {g : Go.CgoParam} {r : Rust.Binding} {ps : List Param}
      {gs : List Go.CgoParam} {rs : List Rust.Binding} (same : SameType p.type g.type r.type)
      (rest : SameParams m ps gs rs) : SameParams m (p :: ps) (g :: gs) (r :: rs)

/-- **What a function returns**: nothing, a status or a value. -/
inductive SameAnswer : Answer → Answer → Option Rust.Ty → Prop
  | void : SameAnswer .void .void none
  | status : SameAnswer .status .status (some (.primitive .int32))
  | value {v : ValueType} {t : Rust.Ty} (same : SameValue v t) :
    SameAnswer (.value v) (.value v) (some t)

/-- **Three definitions of one function.** -/
structure SameFunction (m : Method) (c : Signature) (go : Go.CgoExport) (rust : Rust.Signature) :
    Prop where
  /-- They have the same symbol. -/
  symbols : go.symbol = c.symbol ∧ rust.name = c.symbol
  /-- They have as many parameters. -/
  lengths : go.params.length = c.params.length ∧ rust.params.length = c.params.length
  /-- The parameters are the same, position by position. -/
  params : SameParams m c.params go.params rust.params
  /-- They return the same. -/
  answers : SameAnswer c.answer go.answer rust.answer

theorem SameParams.lengths {m : Method} {ps : List Param} {gs : List Go.CgoParam}
    {rs : List Rust.Binding} (h : SameParams m ps gs rs) :
    gs.length = ps.length ∧ rs.length = ps.length := by
  induction h with
  | nil | result => exact ⟨rfl, rfl⟩
  | cons _ _ ih => exact ⟨congrArg (· + 1) ih.1, congrArg (· + 1) ih.2⟩

/-! ### One parameter -/

/-- A type that crosses as a whole is the same in C and in Rust. -/
theorem sameValue_of_ofText {ty : String} {v : ValueType} {t : Rust.Ty}
    (hv : ValueType.ofText ty = .ok v) (ht : Rust.valueType ty = .ok t) : SameValue v t := by
  obtain ⟨form, hform, ht⟩ := bind_eq_ok_iff.mp ht
  have hread := classify_eq_ok_iff.mp hform
  rw [ValueType.ofText, hread] at hv
  -- Both sides read the same form of the type, and texts and buffers are no values.
  cases form with
  | handle name =>
    obtain rfl := Except.ok.inj hv
    obtain rfl := pure_eq_ok_iff.mp ht
    exact .handle name
  | primitive p =>
    obtain rfl := Except.ok.inj hv
    obtain rfl := pure_eq_ok_iff.mp ht
    exact .primitive p
  | qualified name =>
    obtain rfl := Except.ok.inj hv
    obtain ⟨ident, hident, ht⟩ := bind_eq_ok_iff.mp ht
    obtain rfl := pure_eq_ok_iff.mp ht
    exact .schema name ident hident
  | string | buffer _ => cases hv

/-- **One parameter of an operation becomes the same parameters** in front of any others. -/
theorem sameParams_of_lower {m : Method} {p : Parameter} {cs ps : List Param}
    {gs ps' : List Go.CgoParam} {rs ps'' : List Rust.Binding} (hc : lower p = .ok cs)
    (hg : Go.CgoParam.lower p = .ok gs) (hr : Rust.passedParams p = .ok rs)
    (rest : SameParams m ps ps' ps'') : SameParams m (cs ++ ps) (gs ++ ps') (rs ++ ps'') := by
  -- all three look at the same form
  obtain ⟨form, hform, hc⟩ := bind_eq_ok_iff.mp hc
  obtain ⟨form', hform', hg⟩ := bind_eq_ok_iff.mp hg
  obtain ⟨name, -, hr⟩ := bind_eq_ok_iff.mp hr
  obtain ⟨form'', hform'', hr⟩ := bind_eq_ok_iff.mp hr
  obtain rfl := Except.ok.inj (hform.symm.trans hform')
  obtain rfl := Except.ok.inj (hform.symm.trans hform'')
  -- one case for each form, and for a schema type one for each transfer
  cases form with
  | string =>
    obtain rfl := pure_eq_ok_iff.mp hc
    obtain rfl := pure_eq_ok_iff.mp hg
    obtain rfl := pure_eq_ok_iff.mp hr
    exact .cons .text rest
  | buffer element =>
    obtain ⟨length, -, hr⟩ := bind_eq_ok_iff.mp hr
    obtain rfl := pure_eq_ok_iff.mp hc
    obtain rfl := pure_eq_ok_iff.mp hg
    obtain rfl := pure_eq_ok_iff.mp hr
    exact .cons (.elements element _) (.cons .length rest)
  | handle handle =>
    obtain rfl := pure_eq_ok_iff.mp hc
    obtain rfl := pure_eq_ok_iff.mp hg
    obtain rfl := pure_eq_ok_iff.mp hr
    exact .cons (.handle handle) rest
  | primitive q =>
    obtain rfl := pure_eq_ok_iff.mp hc
    obtain rfl := pure_eq_ok_iff.mp hg
    obtain rfl := pure_eq_ok_iff.mp hr
    exact .cons (.primitive q) rest
  | qualified q =>
    obtain ⟨ident, hident, hr⟩ := bind_eq_ok_iff.mp hr
    obtain rfl := pure_eq_ok_iff.mp hc
    cases htransfer : p.effectiveTransfer with
    | value =>
      simp only [htransfer] at hg hr
      obtain rfl := pure_eq_ok_iff.mp hg
      obtain rfl := pure_eq_ok_iff.mp hr
      exact .cons (.schema q ident hident) rest
    | ref =>
      simp only [htransfer] at hg hr
      obtain rfl := pure_eq_ok_iff.mp hg
      obtain rfl := pure_eq_ok_iff.mp hr
      exact .cons (.pointer q ident false hident) rest
    | refMut =>
      simp only [htransfer] at hg hr
      obtain rfl := pure_eq_ok_iff.mp hg
      obtain rfl := pure_eq_ok_iff.mp hr
      exact .cons (.pointer q ident true hident) rest

/-! ### Functions -/

/-- The parameters of an operation, one after the other. -/
theorem sameParams_of_mapM {m : Method} {ps : List Parameter} {cs : List (List Param)}
    {gs : List (List Go.CgoParam)} {rs : List (List Rust.Binding × Rust.Handover)}
    (hc : List.Forall₂ (fun p c => lower p = .ok c) ps cs)
    (hg : List.Forall₂ (fun p g => Go.CgoParam.lower p = .ok g) ps gs)
    (hr : List.Forall₂ (fun p r => Rust.passedParams p = .ok r.1) ps rs) {outC : List Param}
    {outGo : List Go.CgoParam} {outRust : List Rust.Binding}
    (out : SameParams m outC outGo outRust) :
    SameParams m (cs.flatten ++ outC) (gs.flatten ++ outGo) (rs.flatMap (·.1) ++ outRust) := by
  -- over the parameters, with what each of the three makes of them walked along
  induction hc generalizing gs rs with
  | nil =>
    cases hg
    cases hr
    exact out
  | cons hlower _ ih =>
    cases hg with
    | cons hcgo hgs =>
      cases hr with
      | cons hrust hrs =>
        simp only [List.flatten_cons, List.flatMap_cons, List.append_assoc]
        exact sameParams_of_lower hlower hcgo hrust (ih hgs hrs)

/-- The function that the cgo shim defines. -/
theorem exists_of_cgoExport {ctx : Context} {op : Operation} {go : Go.CgoExport}
    (h : Go.CgoExport.ofOperation ctx op = .ok go) :
    go.symbol = op.symbol ctx.apiName ∧
      ∃ gs outs, op.method.parameters.mapM Go.CgoParam.lower = .ok gs ∧
        go.params = gs.flatten ++ outs ∧
        Ends ValueType.ofText (⟨outName, .result ·⟩) .void .status .value op.method outs
          go.answer := by
  obtain ⟨⟨params, answer⟩, hinterface, h⟩ := bind_eq_ok_iff.mp h
  -- the body has no say in the head
  obtain ⟨body, rfl⟩ : ∃ body, go = ⟨op.symbol ctx.apiName, params, answer, body⟩ := by
    simp only at h
    split at h
    · obtain ⟨body, -, h⟩ := bind_eq_ok_iff.mp h
      exact ⟨body, (pure_eq_ok_iff.mp h).symm⟩
    · exact ⟨_, (pure_eq_ok_iff.mp h).symm⟩
    · split at h
      · obtain ⟨body, -, h⟩ := bind_eq_ok_iff.mp h
        exact ⟨body, (pure_eq_ok_iff.mp h).symm⟩
      · obtain ⟨body, -, h⟩ := bind_eq_ok_iff.mp h
        exact ⟨body, (pure_eq_ok_iff.mp h).symm⟩
  obtain ⟨gs, hgs, h⟩ := bind_eq_ok_iff.mp hinterface
  refine ⟨rfl, ?_⟩
  unfold Ends
  cases herror : op.method.error <;> cases hreturns : op.method.returns <;>
    simp only [herror, hreturns, bind_eq_ok_iff, pure_eq_ok_iff, Prod.mk.injEq] at h
  · obtain ⟨rfl, rfl⟩ := h
    exact ⟨gs, [], hgs, (List.append_nil _).symm, rfl, rfl⟩
  · obtain ⟨v, hv, rfl, rfl⟩ := h
    exact ⟨gs, [], hgs, (List.append_nil _).symm, v, hv, rfl, rfl⟩
  · obtain ⟨rfl, rfl⟩ := h
    exact ⟨gs, [], hgs, (List.append_nil _).symm, rfl, rfl⟩
  · obtain ⟨v, hv, rfl, rfl⟩ := h
    exact ⟨gs, _, hgs, rfl, v, hv, rfl, rfl⟩

/-- The function that Rust exports. -/
theorem exists_of_rustExport {ctx : Context} {op : Operation} {rust : Rust.Export}
    (h : Rust.Export.ofOperation ctx op = .ok rust) :
    rust.signature.name = op.symbol ctx.apiName ∧ rust.signature.hasSelf = false ∧
      ∃ (rs : List (List Rust.Binding × Rust.Handover)) (outs : List Rust.Binding),
        List.Forall₂ (fun p r => Rust.passedParams p = .ok r.1) op.method.parameters rs ∧
        rust.signature.params = rs.flatMap (·.1) ++ outs ∧
        Ends Rust.valueType Rust.Export.outParam none (some (.primitive .int32)) some op.method
          outs rust.signature.answer := by
  obtain ⟨name, hname, h⟩ := bind_eq_ok_iff.mp h
  obtain ⟨trait, -, h⟩ := bind_eq_ok_iff.mp h
  obtain ⟨method, -, h⟩ := bind_eq_ok_iff.mp h
  obtain ⟨rs, hrs, h⟩ := bind_eq_ok_iff.mp h
  obtain rfl := Rust.eq_of_literalName hname
  have hpassed : List.Forall₂ (fun p r => Rust.passedParams p = .ok r.1) op.method.parameters
      rs := by
    refine (mapM_eq_ok_iff.mp hrs).imp fun p r hr => ?_
    obtain ⟨bindings, hbindings, hr⟩ := bind_eq_ok_iff.mp hr
    obtain ⟨handover, -, hr⟩ := bind_eq_ok_iff.mp hr
    rw [← pure_eq_ok_iff.mp hr]
    exact hbindings
  -- by the four shapes of an operation
  unfold Ends
  cases herror : op.method.error <;> cases hreturns : op.method.returns <;>
    simp only [Method.isFallible, Method.returnType?, herror, hreturns, Option.isSome_none,
      Option.isSome_some, Option.map_none, Option.map_some, bind_eq_ok_iff, pure_eq_ok_iff,
      exists_eq_left'] at h
  · subst h
    exact ⟨rfl, rfl, rs, [], hpassed, (List.append_nil _).symm, rfl, rfl⟩
  · obtain ⟨t, ht, rfl⟩ := h
    exact ⟨rfl, rfl, rs, [], hpassed, (List.append_nil _).symm, t, ht, rfl, rfl⟩
  · subst h
    exact ⟨rfl, rfl, rs, [], hpassed, (List.append_nil _).symm, rfl, rfl⟩
  · obtain ⟨t, ht, rfl⟩ := h
    exact ⟨rfl, rfl, rs, _, hpassed, rfl, t, ht, rfl, rfl⟩

/-- The three end alike. -/
theorem same_of_ends {m : Method} {outC : List ValueType} {outGo : List Go.CgoParam}
    {outRust : List Rust.Binding} {answerC answerGo : Answer} {answerRust : Option Rust.Ty}
    (hc : Ends ValueType.ofText id .void .status .value m outC answerC)
    (hgo : Ends ValueType.ofText (⟨outName, .result ·⟩) .void .status .value m outGo answerGo)
    (hrust : Ends Rust.valueType Rust.Export.outParam none (some (.primitive .int32)) some m
      outRust answerRust) :
    SameParams m (outC.map (⟨.result ·, outName⟩)) outGo outRust ∧ SameAnswer answerC answerGo answerRust := by
  unfold Ends at hc hgo hrust
  -- The four ways to end: without result or error, with one of them, and with both.
  cases herror : m.error <;> cases hreturns : m.returns <;>
    simp only [herror, hreturns] at hc hgo hrust
  · obtain ⟨⟨rfl, rfl⟩, ⟨rfl, rfl⟩, ⟨rfl, rfl⟩⟩ := hc, hgo, hrust
    exact ⟨.nil (by simp [PassesResult, herror]), .void⟩
  · obtain ⟨v, hv, rfl, rfl⟩ := hc
    obtain ⟨v', hv', rfl, rfl⟩ := hgo
    obtain ⟨t, ht, rfl, rfl⟩ := hrust
    obtain rfl := Except.ok.inj (hv.symm.trans hv')
    exact ⟨.nil (by simp [PassesResult, herror]), .value (sameValue_of_ofText hv ht)⟩
  · obtain ⟨⟨rfl, rfl⟩, ⟨rfl, rfl⟩, ⟨rfl, rfl⟩⟩ := hc, hgo, hrust
    exact ⟨.nil (by simp [PassesResult, hreturns]), .status⟩
  · obtain ⟨v, hv, rfl, rfl⟩ := hc
    obtain ⟨v', hv', rfl, rfl⟩ := hgo
    obtain ⟨t, ht, rfl, rfl⟩ := hrust
    obtain rfl := Except.ok.inj (hv.symm.trans hv')
    exact ⟨.result (by simp [PassesResult, herror, hreturns]) (sameValue_of_ofText hv ht), .status⟩

/-- **The three lower an operation to the same function.** -/
theorem sameFunction_of_lowered {ctx : Context} {op : Operation} {c : Signature} {go : Go.CgoExport}
    {rust : Rust.Export} (header : Signature.ofOperation ctx.apiName op = .ok c)
    (shim : Go.CgoExport.ofOperation ctx op = .ok go)
    (exported : Rust.Export.ofOperation ctx op = .ok rust) :
    SameFunction op.method c go rust.signature := by
  obtain ⟨hsymbol, ⟨cs, hcs, hargs⟩, hc⟩ := exists_of_ofMethod header
  obtain ⟨hsymbol', gs, outGo, hgs, hparams', hgo⟩ := exists_of_cgoExport shim
  obtain ⟨hsymbol'', -, rs, outRust, hrs, hparams'', hrust⟩ := exists_of_rustExport exported
  -- The parameters agree one by one, up to the one for the result.
  obtain ⟨hout, hanswer⟩ := same_of_ends hc hgo hrust
  have hsame : SameParams op.method c.params go.params rust.signature.params := by
    rw [Signature.params, hargs, hparams', hparams'']
    exact sameParams_of_mapM (mapM_eq_ok_iff.mp hcs) (mapM_eq_ok_iff.mp hgs) hrs hout
  exact {
    symbols := ⟨hsymbol'.trans hsymbol.symm, hsymbol''.trans hsymbol.symm⟩
    lengths := hsame.lengths
    params := hsame
    answers := hanswer }

end Bindery
