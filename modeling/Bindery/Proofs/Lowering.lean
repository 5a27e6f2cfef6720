import Bindery.Proofs.Emission.Native

/-!
# The lowering table

Every operation becomes a C function after one table. It says how a parameter is passed, how a
result is spelled, and what is returned and written back in each of the four ways of answering. The
table is stated here on the texts that a description writes and on the texts that stand in the
header (`PassedAs`, `ReturnedAs`, `AnsweredBy`), and not through the functions that lower.

Lowering has no rule for some types, and gives up on them. In a valid description none of them
occurs: the element of a buffer is a number, texts and buffers are not returned, and a handle or a
schema type has a name of its form. None of this needs the schema, so a description that is valid
without one is lowered all the same.

Constructors and destructors follow the table like all operations. That a constructor returns the
handle of its interface and can fail, and that a destructor is made from this handle, decides which
of its rows they follow.

* `Abi.exists_signature_of_table` — one method;
* `operations_follow_table` — the header of a valid description, operation by operation.
-/

namespace Bindery

open Validate

namespace Abi

/-! ### The table -/

/-- **How a parameter is passed**: the C types and names that it becomes. -/
inductive PassedAs (p : Parameter) : List (String × String) → Prop where
  | string (type : p.type = "string") : PassedAs p [("const char*", p.name)]
  | buffer (element : Primitive) (type : p.type = "buffer<" ++ element.name ++ ">")
      (transfer : p.transfer = some .ref) :
      PassedAs p [("const " ++ element.row.c ++ "*", p.name), ("uint32_t", p.name ++ "_len")]
  | bufferMut (element : Primitive) (type : p.type = "buffer<" ++ element.name ++ ">")
      (transfer : p.transfer = some .refMut) :
      PassedAs p [(element.row.c ++ "*", p.name), ("uint32_t", p.name ++ "_len")]
  | handle (handle : String) (type : p.type = "handle:" ++ handle) :
      PassedAs p [(Naming.handleToSnake handle ++ "_handle", p.name)]
  | primitive (q : Primitive) (type : p.type = q.name) : PassedAs p [(q.row.c, p.name)]
  | value (type : isQualifiedName p.type = true)
      (transfer : p.transfer = none ∨ p.transfer = some .value) :
      PassedAs p [(Naming.cTypeName p.type, p.name)]
  | ref (type : isQualifiedName p.type = true) (transfer : p.transfer = some .ref) :
      PassedAs p [("const " ++ Naming.cTypeName p.type ++ "*", p.name)]
  | refMut (type : isQualifiedName p.type = true) (transfer : p.transfer = some .refMut) :
      PassedAs p [(Naming.cTypeName p.type ++ "*", p.name)]

/-- **How a result is spelled** in C. -/
inductive ReturnedAs (result : String) : String → Prop where
  | handle (handle : String) (type : result = "handle:" ++ handle) :
      ReturnedAs result (Naming.handleToSnake handle ++ "_handle")
  | primitive (q : Primitive) (type : result = q.name) : ReturnedAs result q.row.c
  | schema (type : isQualifiedName result = true) : ReturnedAs result (Naming.cTypeName result)

/-- **The four ways of answering**: what stands behind the parameters of a method, and what is
returned. -/
inductive AnsweredBy (m : Method) : List (String × String) → String → Prop where
  | infallibleVoid (error : m.error = none) (returns : m.returns = none) : AnsweredBy m [] "void"
  | infallibleValue (r : Returns) (spelling : String) (error : m.error = none)
      (returns : m.returns = some r) (spelled : ReturnedAs r.type spelling) :
      AnsweredBy m [] spelling
  | fallibleVoid (error : m.error.isSome = true) (returns : m.returns = none) :
      AnsweredBy m [] "int32_t"
  | fallibleValue (r : Returns) (spelling : String) (error : m.error.isSome = true)
      (returns : m.returns = some r) (spelled : ReturnedAs r.type spelling) :
      AnsweredBy m [(spelling ++ "*", "out_result")] "int32_t"

/-- A parameter as it is written in a prototype. -/
def Param.written (p : Param) : String × String := (p.type.c, p.name)

/-- **A signature after the table**: the parameters of the method one after the other, and behind
them what the way of answering asks for. -/
def Signature.Follows (s : Signature) (m : Method) : Prop :=
  ∃ groups outs, List.Forall₂ PassedAs m.parameters groups ∧ AnsweredBy m outs s.answer.c ∧
    s.params.map Param.written = groups.flatten ++ outs

/-! ### Parameters and results -/

section Transfers

variable {p : Parameter}

/-- A transfer that is named is in effect. -/
theorem effectiveTransfer_of_some {t : Transfer} (h : p.transfer = some t) :
    p.effectiveTransfer = t := by
  rw [Parameter.effectiveTransfer, h]

/-- Where none is named, all but texts are passed by value. -/
theorem effectiveTransfer_of_none (h : p.transfer = none) (htype : p.type ≠ "string") :
    p.effectiveTransfer = .value := by
  rw [Parameter.effectiveTransfer, h]
  exact if_neg htype

/-- A buffer says whether it is written to. -/
theorem passedAs_elements {element : Primitive} (type : p.type = "buffer<" ++ element.name ++ ">")
    (transfer : p.transfer = some .ref ∨ p.transfer = some .refMut) :
    PassedAs p [((ArgType.elements element p.effectiveTransfer.isMut).c, p.name),
      ("uint32_t", lengthName p.name)] := by
  rcases transfer with ht | ht
  · rw [effectiveTransfer_of_some ht]
    exact .buffer element type ht
  · rw [effectiveTransfer_of_some ht]
    exact .bufferMut element type ht

/-- A schema type is passed as its transfer says. -/
theorem passedAs_schemaArg (type : isQualifiedName p.type = true) :
    PassedAs p [((schemaArg p.type p.effectiveTransfer).c, p.name)] := by
  have hstring : p.type ≠ "string" := by
    intro htype
    rw [htype] at type
    exact absurd type (by decide)
  -- By the transfer that is written; without one the default is to pass by value.
  cases ht : p.transfer with
  | none =>
    rw [effectiveTransfer_of_none ht hstring]
    exact .value type (.inl ht)
  | some t =>
    rw [effectiveTransfer_of_some ht]
    cases t with
    | value => exact .value type (.inr ht)
    | ref => exact .ref type ht
    | refMut => exact .refMut type ht

end Transfers

variable {sc : Scope}

/-- **A valid parameter is lowered after the table.** -/
theorem exists_lower_of_parameterOk (hs : NamedInPascalCase sc) {p : Parameter}
    (h : sc.ParameterOk p) : ∃ ps, lower p = .ok ps ∧ PassedAs p (ps.map Param.written) := by
  -- with the form of the type, lowering is one row of a match
  have hform {t : TypeRef} (htext : p.type = t.text) (hwell : t.WellFormed) :
      classify p.type = .ok t :=
    classify_eq_ok_iff.mpr (TypeRef.ofString?_eq_some_iff.mpr ⟨htext, hwell⟩)
  cases h with
  | buffer element type numeric transfer =>
    refine ⟨_, by rw [lower, hform (t := .buffer element) type numeric]; rfl, ?_⟩
    exact passedAs_elements type transfer
  | primitive q type =>
    refine ⟨_, by rw [lower, hform (t := .primitive q) type trivial]; rfl, ?_⟩
    exact .primitive q type
  | string type transfer =>
    refine ⟨_, by rw [lower, hform (t := .string) type trivial]; rfl, ?_⟩
    exact .string type
  | handle name type declared transfer =>
    refine ⟨_, by rw [lower, hform (t := .handle name) type (hs name declared)]; rfl, ?_⟩
    exact .handle name type
  | schema crosses =>
    refine ⟨_, by rw [lower, hform (t := .qualified p.type) rfl crosses.1]; rfl, ?_⟩
    exact passedAs_schemaArg crosses.1

/-- **A valid result is spelled after the table.** -/
theorem exists_ofText_of_returnOk (hs : NamedInPascalCase sc) {type : String}
    (h : sc.ReturnOk type) : ∃ v, ValueType.ofText type = .ok v ∧ ReturnedAs type v.c := by
  cases h with
  | primitive q htype =>
    have hform : TypeRef.ofString? type = some (.primitive q) :=
      TypeRef.ofString?_eq_some_iff.mpr ⟨htype, trivial⟩
    exact ⟨.primitive q, by rw [ValueType.ofText, hform], .primitive q htype⟩
  | handle name htype declared =>
    have hform : TypeRef.ofString? type = some (.handle name) :=
      TypeRef.ofString?_eq_some_iff.mpr ⟨htype, hs name declared⟩
    exact ⟨.handle name, by rw [ValueType.ofText, hform], .handle name htype⟩
  | schema crosses =>
    have hform : TypeRef.ofString? type = some (.qualified type) :=
      TypeRef.ofString?_eq_some_iff.mpr ⟨rfl, crosses.1⟩
    exact ⟨.schema type, by rw [ValueType.ofText, hform], .schema crosses.1⟩

/-! ### Methods -/

/-- **The ways of answering** are those of the table, where results are spelled after it. -/
theorem answeredBy_of_ends {m : Method} {outs : List ValueType} {answer : Answer}
    (hspelled : ∀ r v, m.returns = some r → ValueType.ofText r.type = .ok v →
      ReturnedAs r.type v.c)
    (hends : Ends ValueType.ofText id .void .status .value m outs answer) :
    AnsweredBy m ((outs.map (⟨.result ·, outName⟩)).map Param.written) answer.c := by
  unfold Ends at hends
  -- by the four shapes, one row of the table for each
  cases herror : m.error with
  | none =>
    cases hreturns : m.returns with
    | none =>
      simp only [herror, hreturns] at hends
      rw [hends.1, hends.2]
      exact .infallibleVoid herror hreturns
    | some r =>
      simp only [herror, hreturns] at hends
      obtain ⟨v, hv, hout, hanswer⟩ := hends
      rw [hout, hanswer]
      exact .infallibleValue r v.c herror hreturns (hspelled r v hreturns hv)
  | some e =>
    have hsome : m.error.isSome = true := by rw [herror]; rfl
    cases hreturns : m.returns with
    | none =>
      simp only [herror, hreturns] at hends
      rw [hends.1, hends.2]
      exact .fallibleVoid hsome hreturns
    | some r =>
      simp only [herror, hreturns] at hends
      obtain ⟨v, hv, hout, hanswer⟩ := hends
      rw [hout, hanswer]
      exact .fallibleValue r v.c hsome hreturns (hspelled r v hreturns hv)

/-- **A method that obeys the rules is lowered after the table.** -/
theorem exists_signature_of_table (hs : NamedInPascalCase sc) {m : Method} (h : sc.MethodOk m)
    (symbol : String) :
    ∃ s, Signature.ofMethod symbol m = .ok s ∧ s.symbol = symbol ∧ s.Follows m := by
  obtain ⟨s, hsignature⟩ := exists_signature_of_methodOk hs h symbol
  obtain ⟨hsymbol, ⟨chunks, hchunks, hargs⟩, hends⟩ := exists_of_ofMethod hsignature
  -- the parameters, one by one
  have hpassed : List.Forall₂ PassedAs m.parameters (chunks.map (·.map Param.written)) := by
    rw [List.forall₂_map_right_iff]
    refine forall₂_imp_of_mem (mapM_eq_ok_iff.mp hchunks) fun p hp ps hps => ?_
    obtain ⟨ps', hps', hpassed⟩ := exists_lower_of_parameterOk hs (h.parameters p hp)
    obtain rfl : ps = ps' := Except.ok.inj (hps.symm.trans hps')
    exact hpassed
  -- what stands behind them
  have hspelled : ∀ r v, m.returns = some r → ValueType.ofText r.type = .ok v →
      ReturnedAs r.type v.c := by
    intro r v hr hv
    obtain ⟨v', hv', hreturned⟩ := exists_ofText_of_returnOk hs (h.returns r hr)
    obtain rfl : v = v' := Except.ok.inj (hv.symm.trans hv')
    exact hreturned
  refine ⟨s, hsignature, hsymbol, _, _, hpassed, answeredBy_of_ends hspelled hends, ?_⟩
  rw [Signature.params, List.map_append, hargs, List.map_flatten]

/-! ### Constructors and destructors -/

/-- The signature of a constructor: it returns a status, and the handle through the trailing
pointer. -/
theorem signature_of_constructor {m : Method} {e : String} (herror : m.error = some e)
    {r : Returns} (hreturns : m.returns = some r) {handle : String}
    (hform : TypeRef.ofString? r.type = some (.handle handle)) {symbol : String} {s : Signature}
    (h : Signature.ofMethod symbol m = .ok s) :
    s.answer.c = "int32_t" ∧ ∃ ins, s.params.map Param.written =
      ins ++ [(Naming.handleToSnake handle ++ "_handle*", "out_result")] := by
  obtain ⟨-, -, hends⟩ := exists_of_ofMethod h
  simp only [Ends, herror, hreturns] at hends
  obtain ⟨v, hv, hout, hanswer⟩ := hends
  -- the result is the handle
  rw [ValueType.ofText, hform] at hv
  obtain rfl := Except.ok.inj hv
  have htype : Naming.handleTypedef handle ++ "*" = Naming.handleToSnake handle ++ "_handle*" := by
    rw [Naming.handleTypedef, String.append_assoc]
    rfl
  refine ⟨by rw [hanswer]; rfl, s.args.map Param.written, ?_⟩
  rw [Signature.params, List.map_append, hout, ← htype]
  rfl

/-- The signature of a destructor. -/
theorem signature_of_destructor {handle : String} (hpascal : isPascalIdentifier handle = true)
    (symbol : String) :
    Signature.ofMethod symbol (Interface.destructorOf handle) =
      .ok ⟨.void, symbol, [⟨.value (.handle handle), Naming.handleToSnake handle⟩], none⟩ := by
  have hform : classify ("handle:" ++ handle) = .ok (.handle handle) := by
    rw [classify_eq_ok_iff, TypeRef.ofString?_handle, if_pos hpascal]
  have hlower : [{ name := Naming.handleToSnake handle, type := "handle:" ++ handle }].mapM lower =
      .ok [[⟨.value (.handle handle), Naming.handleToSnake handle⟩]] := by
    refine mapM_eq_ok_iff.mpr (.cons ?_ .nil)
    rw [lower, hform]
    rfl
  rw [Signature.ofMethod, Interface.destructorOf, hlower]
  rfl

end Abi

/-! ### The header -/

section Header

variable {ctx : Context} {known : Option Schema} (valid : Conforms ctx.api known)

/-- **The header holds a prototype for every operation.** -/
theorem Header.prototype_isInfix {code : List Line} (h : Header.header ctx = .ok code)
    {op : Operation} (hop : op ∈ ctx.api.operations) {s : Abi.Signature}
    (hs : Abi.Signature.ofOperation ctx.apiName op = .ok s) :
    s.lines (some (Naming.exportMacro ctx.apiName)) ";" <:+: code := by
  obtain ⟨i, hi, hop⟩ := List.mem_flatMap.mp hop
  obtain ⟨parts, hparts, hcode⟩ := bind_eq_ok_iff.mp h
  obtain ⟨part, hpart, hlines⟩ := exists_mem_of_forall₂ (mapM_eq_ok_iff.mp hparts) hi
  obtain ⟨signatures, hsignatures, hpart'⟩ := bind_eq_ok_iff.mp hlines
  obtain ⟨s', hs', hsignature⟩ := exists_mem_of_forall₂ (mapM_eq_ok_iff.mp hsignatures) hop
  obtain rfl : s = s' := Except.ok.inj (hs.symm.trans hsignature)
  -- among the prototypes of its interface
  have hprototype : s.lines (some (Naming.exportMacro ctx.apiName)) ";" <:+:
      signatures.flatMap fun s => s.lines (some (Naming.exportMacro ctx.apiName)) ";" := by
    rw [List.flatMap_def]
    exact List.infix_of_mem_flatten (List.mem_map.mpr ⟨s, hs', rfl⟩)
  have hinterface : s.lines (some (Naming.exportMacro ctx.apiName)) ";" <:+: part := by
    rw [← pure_eq_ok_iff.mp hpart']
    exact hprototype.trans (List.infix_append _ _ _)
  -- and these in the header
  refine (hinterface.trans (List.infix_of_mem_flatten hpart)).trans ?_
  rw [← pure_eq_ok_iff.mp hcode]
  exact List.infix_append _ _ _

include valid

/-- A handle that is constructed has a name in Pascal case. -/
theorem isPascalIdentifier_of_constructs {i : Interface} (hi : i ∈ ctx.api.interfaces)
    {handle : String} (h : i.constructedHandle? = some handle) :
    isPascalIdentifier handle = true := by
  have hs := namedInPascalCase_of_handles known valid.handlesPascal
  have hok := valid.interfaces i hi
  obtain ⟨c, hc, hmakes⟩ :=
    (constructedHandle?_eq_some_iff hs hok.constructors hok.oneHandle).mp h
  exact hs handle (mem_handles_of_makes (hok.constructors c hc).toMethodOk hmakes hs)

/-- A constructor returns the handle of its interface, and can fail. -/
theorem constructor_makes {i : Interface} (hi : i ∈ ctx.api.interfaces) {c : Method}
    (hc : c ∈ i.constructors) :
    ∃ handle r e, i.constructedHandle? = some handle ∧ c.returns = some r ∧ c.error = some e ∧
      TypeRef.ofString? r.type = some (.handle handle) := by
  have hs := namedInPascalCase_of_handles known valid.handlesPascal
  have hok := valid.interfaces i hi
  obtain ⟨e, herror⟩ := (hok.constructors c hc).canFail
  obtain ⟨handle, hmakes⟩ := (hok.constructors c hc).makes
  -- The constructors make one handle, so that of the interface is the one that this one returns.
  have hconstructed : i.constructedHandle? = some handle :=
    (constructedHandle?_eq_some_iff hs hok.constructors hok.oneHandle).mpr ⟨c, hc, hmakes⟩
  obtain ⟨r, hr, htype⟩ := hmakes
  refine ⟨handle, r, e, hconstructed, hr, herror, ?_⟩
  rw [htype, TypeRef.ofString?_handle,
    if_pos (isPascalIdentifier_of_constructs valid hi hconstructed)]

end Header

/-- **Every operation of a valid description follows the table.** The description may be valid with
the types of a schema or without; the header is emitted whatever the schema of the context is, and
holds a prototype for each operation. Its parameters are those that the parameters of the operation
become, one after the other; a trailing pointer stands behind them exactly when the operation can
fail and has a result. A constructor hands the handle of its interface over through it, and a
destructor takes this handle and nothing else. -/
theorem operations_follow_table {ctx : Context} {known : Option Schema}
    (hvalid : ctx.api.validate known = []) :
    ∃ code, Header.emit ctx =
        .ok [ctx.generatedFile (ctx.apiName ++ ".h") Code.fourBlanks code] ∧
      ∀ op ∈ ctx.api.operations, ∃ s, Abi.Signature.ofOperation ctx.apiName op = .ok s ∧
        s.symbol = op.symbol ctx.apiName ∧
        s.lines (some (Naming.exportMacro ctx.apiName)) ";" <:+: code ∧
        s.Follows op.method ∧
        (op.kind = .constructor → ∃ handle, op.interface.constructedHandle? = some handle ∧
          s.answer.c = "int32_t" ∧ ∃ ins, s.params.map Abi.Param.written =
            ins ++ [(Naming.handleToSnake handle ++ "_handle*", "out_result")]) ∧
        (op.kind = .destructor → ∃ handle, op.interface.constructedHandle? = some handle ∧
          s.answer.c = "void" ∧ s.params.map Abi.Param.written =
            [(Naming.handleToSnake handle ++ "_handle", Naming.handleToSnake handle)]) := by
  -- The prototypes stand in the header in any case; what they say depends on the kind of the
  -- operation.
  have valid : Conforms ctx.api known := conforms_of_validate hvalid
  obtain ⟨artifacts, hemit⟩ := Header.succeeds_emit valid
  obtain ⟨code, hcode, hartifacts⟩ := bind_eq_ok_iff.mp hemit
  refine ⟨code, by rw [hemit, ← pure_eq_ok_iff.mp hartifacts], fun op hop => ?_⟩
  have hs := namedInPascalCase_of_handles known valid.handlesPascal
  obtain ⟨s, hsignature, hsymbol, hfollows⟩ :=
    Abi.exists_signature_of_table hs (methodOk_of_mem_operations valid hop)
      (op.symbol ctx.apiName)
  refine ⟨s, hsignature, hsymbol, Header.prototype_isInfix hcode hop hsignature, hfollows, ?_, ?_⟩
  · intro hkind
    obtain ⟨i, hi, hmem⟩ := List.mem_flatMap.mp hop
    rcases mem_operations_iff.mp hmem with ⟨c, hc, rfl⟩ | ⟨h, -, rfl⟩ | ⟨m, -, rfl⟩
    · obtain ⟨handle, r, e, hhandle, hreturns, herror, hform⟩ := constructor_makes valid hi hc
      exact ⟨handle, hhandle,
        Abi.signature_of_constructor herror hreturns hform hsignature⟩
    · cases hkind
    · cases hkind
  · intro hkind
    obtain ⟨i, hi, hmem⟩ := List.mem_flatMap.mp hop
    rcases mem_operations_iff.mp hmem with ⟨c, -, rfl⟩ | ⟨handle, hhandle, rfl⟩ | ⟨m, -, rfl⟩
    · cases hkind
    · have hpascal := isPascalIdentifier_of_constructs valid hi hhandle
      rw [Abi.signature_of_destructor hpascal] at hsignature
      obtain rfl := Except.ok.inj hsignature
      exact ⟨handle, hhandle, rfl, rfl⟩
    · cases hkind

/-! ### All rows of the table -/

/-- A mixer whose operations go through every row of the table. -/
def consoleApi : Api where
  metadata := { name := "demo", version := "1.0.0", language := .rust }
  schemas := ["demo.fbs"]
  handles := [{ name := "MixerDesk" }]
  interfaces := [
    { name := "desk",
      constructors := [
        { name := "create", parameters := [{ name := "title", type := "string" }],
          returns := some { type := "handle:MixerDesk" }, error := some "Audio.Outcome" }],
      methods := [
        { name := "mute" },
        { name := "level", parameters := [{ name := "desk", type := "handle:MixerDesk" }],
          returns := some { type := "float32" } },
        { name := "mix",
          parameters := [
            { name := "from", type := "buffer<int16>", transfer := some .ref },
            { name := "to", type := "buffer<int16>", transfer := some .refMut }],
          error := some "Audio.Outcome" },
        { name := "tune",
          parameters := [
            { name := "a", type := "Audio.Band" },
            { name := "b", type := "Audio.Band", transfer := some .ref },
            { name := "c", type := "Audio.Band", transfer := some .refMut }],
          returns := some { type := "Audio.Band" },
          error := some "Audio.Outcome" }] }]

/-- The mixer without any schema. -/
def consoleContext : Context := { api := consoleApi, types := Keyed.empty }

/-- The prototypes of the mixer, the destructor behind the constructor. -/
def consolePrototypes : List (List Line) := [
  ["DEMO_EXPORT int32_t demo_desk_create(const char* title, mixer_desk_handle* out_result);"],
  ["DEMO_EXPORT void demo_desk_destroy_mixer_desk(mixer_desk_handle mixer_desk);"],
  ["DEMO_EXPORT void demo_desk_mute(void);"],
  ["DEMO_EXPORT float demo_desk_level(mixer_desk_handle desk);"],
  ["DEMO_EXPORT int32_t demo_desk_mix(",
    ⟨1, "const int16_t* from,"⟩, ⟨1, "uint32_t from_len,"⟩, ⟨1, "int16_t* to,"⟩,
    ⟨1, "uint32_t to_len);"⟩],
  ["DEMO_EXPORT int32_t demo_desk_tune(",
    ⟨1, "Audio_Band a,"⟩, ⟨1, "const Audio_Band* b,"⟩, ⟨1, "Audio_Band* c,"⟩,
    ⟨1, "Audio_Band* out_result);"⟩]]

theorem operations_follow_table_console :
    consoleContext.api.validate none = [] ∧
      ∃ code, Header.emit consoleContext =
          .ok [consoleContext.generatedFile "demo.h" Code.fourBlanks code] ∧
        ∀ prototype ∈ consolePrototypes, prototype <:+: code := by
  have hvalid : consoleContext.api.validate none = [] := by decide
  obtain ⟨code, hemit, hops⟩ := operations_follow_table hvalid
  refine ⟨hvalid, code, hemit, fun prototype hprototype => ?_⟩
  -- The prototypes in the order of the operations.
  have hlines : consoleContext.api.operations.mapM (fun op =>
      (Abi.Signature.ofOperation "demo" op).map (·.lines (some "DEMO_EXPORT") ";")) =
        .ok consolePrototypes := by
    decide
  obtain ⟨op, hop, hmap⟩ := exists_mem_of_forall₂ (mapM_eq_ok_iff.mp hlines).flip hprototype
  obtain ⟨s, hs, rfl⟩ := map_eq_ok_iff.mp hmap
  obtain ⟨s', hs', -, hinfix, -⟩ := hops op hop
  obtain rfl : s = s' := Except.ok.inj (hs.symm.trans hs')
  exact hinfix

end Bindery
