import Bindery.Emit.Kotlin.Bridge
import Bindery.Emit.Swift
import Bindery.Proofs.Description
import Bindery.Proofs.Operations
import Bindery.Proofs.Schema

/-!
# Calls of the C interface

The bridge of the Java virtual machine and the Swift binding call the functions that the
header declares. Each makes its own list of arguments from the parameters of an operation,
and decides on its own whether a schema type goes by value or by address: the header asks
for the transfer only, the two callers ask first whether the type is an enumeration or a
record.

`Kotlin.Passes` and `Swift.Passes` say which arguments fit which parameters of the header.
A list of arguments is compared with the parameters as a whole (`Supplies`): there are as
many of them, and they fit exactly when a condition holds. The condition is the same for
both callers, that no enumeration is borrowed (`EnumsByValue`):

* `supplies_of_bridge` — the bridge of an operation;
* `supplies_of_function` and `supplies_deinit` — the functions of the Swift binding, and the
  end of the life of a handle;
* `calls_follow_header` — every call in the two files;
* `borrowed_modeContext` — a valid description in which an enumeration is borrowed, so that both
  callers pass a number where the header declares a pointer.
-/

namespace Bindery

open Abi Validate

/-! ### Arguments for parameters -/

/-- **Arguments for parameters**: there are as many, and they fit exactly under a
condition. -/
structure Supplies {α β : Type} (fits : α → β → Prop) (condition : Prop) (params : List α)
    (args : List β) : Prop where
  length : args.length = params.length
  agree : List.Forall₂ fits params args ↔ condition

section Supplies

variable {α β γ : Type} {fits : α → β → Prop} {P Q : Prop}

theorem Supplies.nil : Supplies fits True [] [] :=
  ⟨rfl, iff_of_true .nil trivial⟩

/-- One argument for one parameter. -/
theorem Supplies.single {x : α} {y : β} (iff : fits x y ↔ P) : Supplies fits P [x] [y] :=
  ⟨rfl, by simp [iff]⟩

theorem forall₂_append_iff {xs xs' : List α} {ys ys' : List β} (h : ys.length = xs.length) :
    List.Forall₂ fits (xs ++ xs') (ys ++ ys') ↔
      List.Forall₂ fits xs ys ∧ List.Forall₂ fits xs' ys' := by
  induction xs generalizing ys with
  | nil =>
    obtain rfl := List.eq_nil_of_length_eq_zero h
    simp
  -- The first parts are of one length, so the heads meet the heads.
  | cons x xs ih =>
    cases ys with
    | nil => cases h
    | cons y ys =>
      have hlength : ys.length = xs.length := Nat.succ.inj h
      simp only [List.cons_append, List.forall₂_cons, ih hlength, and_assoc]

/-- Arguments one after the other fit when both parts do. -/
theorem Supplies.append {xs xs' : List α} {ys ys' : List β} (h : Supplies fits P xs ys)
    (h' : Supplies fits Q xs' ys') : Supplies fits (P ∧ Q) (xs ++ xs') (ys ++ ys') where
  length := by rw [List.length_append, List.length_append, h.length, h'.length]
  agree := by rw [forall₂_append_iff h.length, h.agree, h'.agree]

theorem Supplies.congr {xs : List α} {ys : List β} (h : Supplies fits P xs ys) (iff : P ↔ Q) :
    Supplies fits Q xs ys :=
  ⟨h.length, h.agree.trans iff⟩

/-- What several things take, when it is known for each of them. -/
theorem supplies_flatten {R : γ → List α → Prop} {S : γ → List β → Prop} {good : γ → Prop}
    {zs : List γ} {xss : List (List α)} {yss : List (List β)} (hx : List.Forall₂ R zs xss)
    (hy : List.Forall₂ S zs yss)
    (step : ∀ z ∈ zs, ∀ xs ys, R z xs → S z ys → Supplies fits (good z) xs ys) :
    Supplies fits (∀ z ∈ zs, good z) xss.flatten yss.flatten := by
  induction hx generalizing yss with
  | nil =>
    cases hy
    exact Supplies.nil.congr (by simp)
  | cons hR _ ih =>
    cases hy with
    | cons hS hrest =>
      obtain ⟨hstep, hsteps⟩ := List.forall_mem_cons.mp step
      have hboth := (hstep _ _ hR hS).append (ih hrest hsteps)
      exact hboth.congr List.forall_mem_cons.symm

end Supplies

/-! ### Enumerations that are borrowed -/

/-- The parameter does not borrow an enumeration. -/
def Unborrowed (types : Schema) (p : Parameter) : Prop :=
  ∀ q, p.typeRef? = some (.qualified q) → types.isEnum q = true → p.effectiveTransfer = .value

/-- **No parameter of the method borrows an enumeration.** -/
def EnumsByValue (types : Schema) (m : Method) : Prop :=
  ∀ p ∈ m.parameters, Unborrowed types p

/-- A parameter of another form borrows no enumeration. -/
theorem unborrowed_of_form {types : Schema} {p : Parameter} {t : TypeRef}
    (h : p.typeRef? = some t) (ht : ∀ q, t ≠ .qualified q) : Unborrowed types p := by
  intro q hq
  rw [h] at hq
  exact absurd (Option.some.inj hq) (ht q)

theorem unborrowed_iff {types : Schema} {p : Parameter} {q : String}
    (h : p.typeRef? = some (.qualified q)) :
    Unborrowed types p ↔ (types.isEnum q = true → p.effectiveTransfer = .value) := by
  refine ⟨fun hp => hp q h, fun hp q' hq' => ?_⟩
  rw [h] at hq'
  obtain rfl := TypeRef.qualified.inj (Option.some.inj hq')
  exact hp

/-- The definitions that a context finds are those of the schema. -/
theorem typeDef_eq_ok_iff {ctx : Context} {q : String} {d : TypeDef} :
    ctx.typeDef q = .ok d ↔ ctx.types.get? q = some d := by
  rw [Context.typeDef]
  cases ctx.types.get? q with
  | none => exact ⟨nofun, nofun⟩
  | some d' => simp

/-! ### The bridge of the Java virtual machine -/

namespace Kotlin

/-- **The arguments of the bridge that fit a parameter of the header.** -/
inductive Passes : Param → BridgeArg → Prop
  | text (name : String) : Passes ⟨.text, name⟩ (.text name)
  | elements (p : Primitive) (writable : Bool) (name : String) :
    Passes ⟨.elements p writable, name⟩ (.elements p writable name)
  | length (name : String) : Passes ⟨.length, lengthName name⟩ (.length name)
  | handle (type name : String) : Passes ⟨.value (.handle type), name⟩ (.handle type name)
  | scalar (p : Primitive) (name : String) : Passes ⟨.value (.primitive p), name⟩ (.scalar p name)
  | enum (type name : String) : Passes ⟨.value (.schema type), name⟩ (.enum type name)
  | record (type name : String) : Passes ⟨.value (.schema type), name⟩ (.record false name)
  | address (type name : String) (writable : Bool) :
    Passes ⟨.pointer type writable, name⟩ (.record true name)
  | result (v : ValueType) : Passes ⟨.result v, outName⟩ .result

/-- An enumeration fits exactly when it is passed by value. -/
theorem passes_enum_iff {type name : String} {transfer : Transfer} :
    Passes ⟨schemaArg type transfer, name⟩ (.enum type name) ↔ transfer = .value := by
  cases transfer with
  | value => exact iff_of_true (.enum type name) rfl
  | ref | refMut => exact iff_of_false nofun nofun

/-- A record fits under any transfer. -/
theorem passes_record (type name : String) (transfer : Transfer) :
    Passes ⟨schemaArg type transfer, name⟩ (.record (transfer ≠ .value) name) := by
  cases transfer with
  | value => exact .record type name
  | ref => exact .address type name false
  | refMut => exact .address type name true

/-- What one parameter takes. -/
theorem supplies_crossing {ctx : Context} {p : Parameter} {ps : List Param} {t : JvmType}
    (hps : lower p = .ok ps) (ht : JvmType.ofText ctx p.type = .ok t) :
    Supplies Passes (Unborrowed ctx.types p) ps (crossing p t).args := by
  obtain ⟨form, hform, hps⟩ := bind_eq_ok_iff.mp hps
  obtain ⟨form', hform', ht⟩ := bind_eq_ok_iff.mp ht
  -- both sides read the same text
  obtain rfl := Except.ok.inj (hform.symm.trans hform')
  have href : p.typeRef? = some form := classify_eq_ok_iff.mp hform
  cases form with
  | string =>
    obtain rfl := pure_eq_ok_iff.mp hps
    obtain rfl := pure_eq_ok_iff.mp ht
    exact .single (iff_of_true (.text p.name) (unborrowed_of_form href nofun))
  | buffer element =>
    obtain rfl := pure_eq_ok_iff.mp hps
    obtain rfl := pure_eq_ok_iff.mp ht
    -- a buffer is two parameters and two arguments
    have hpair : Supplies Passes (True ∧ True)
        ([⟨.elements element p.effectiveTransfer.isMut, p.name⟩] ++
          [⟨.length, lengthName p.name⟩])
        ([.elements element p.effectiveTransfer.isMut p.name] ++ [.length p.name]) :=
      (Supplies.single (iff_of_true (.elements element _ p.name) trivial)).append
        (.single (iff_of_true (.length p.name) trivial))
    exact hpair.congr (iff_of_true ⟨trivial, trivial⟩ (unborrowed_of_form href nofun))
  | handle handle =>
    obtain rfl := pure_eq_ok_iff.mp hps
    obtain rfl := pure_eq_ok_iff.mp ht
    exact .single (iff_of_true (.handle handle p.name) (unborrowed_of_form href nofun))
  | primitive q =>
    obtain rfl := pure_eq_ok_iff.mp hps
    obtain rfl := pure_eq_ok_iff.mp ht
    exact .single (iff_of_true (.scalar q p.name) (unborrowed_of_form href nofun))
  | qualified q =>
    obtain rfl := pure_eq_ok_iff.mp hps
    obtain ⟨d, hd, ht⟩ := bind_eq_ok_iff.mp ht
    have hget := typeDef_eq_ok_iff.mp hd
    rw [unborrowed_iff href]
    split at ht
    · next henum =>
      obtain rfl := pure_eq_ok_iff.mp ht
      have hisEnum : ctx.types.isEnum q = true := Schema.isEnum_iff.mpr ⟨d, hget, henum⟩
      -- the bridge passes the value of an enumeration, whatever its transfer is
      rw [forall_prop_of_true hisEnum]
      exact .single passes_enum_iff
    · next henum =>
      split at ht
      · obtain rfl := pure_eq_ok_iff.mp ht
        -- a record is passed as it is transferred
        have hnotEnum : ¬ ctx.types.isEnum q = true := by
          rw [Schema.isEnum, hget, Option.any_some]
          exact henum
        exact .single (iff_of_true (passes_record q p.name _) fun h => absurd h hnotEnum)
      · cases ht

/-- **The bridge of an operation calls the function of the header**, with as many arguments,
and they fit exactly when no enumeration is borrowed. -/
theorem supplies_of_bridge {ctx : Context} {op : Operation} {b : Bridge}
    (h : Bridge.ofOperation ctx op = .ok b) :
    ∃ s, Signature.ofOperation ctx.apiName op = .ok s ∧ b.callee = s.symbol ∧
      Supplies Passes (EnumsByValue ctx.types op.method) s.params b.args := by
  obtain ⟨s, hs, h⟩ := bind_eq_ok_iff.mp h
  obtain ⟨ret, -, h⟩ := bind_eq_ok_iff.mp h
  obtain ⟨types, htypes, h⟩ := bind_eq_ok_iff.mp h
  obtain ⟨outcome, -, h⟩ := bind_eq_ok_iff.mp h
  obtain rfl := pure_eq_ok_iff.mp h
  obtain ⟨-, ⟨cs, hcs, hargs⟩, -⟩ := exists_of_ofMethod hs
  -- the arguments for the parameters of the operation
  have hparams : Supplies Passes (EnumsByValue ctx.types op.method) s.args
      (types.map fun e => (crossing e.1 e.2).args).flatten := by
    have hcrossings : List.Forall₂
        (fun p args => ∃ t, JvmType.ofText ctx p.type = .ok t ∧ args = (crossing p t).args)
        op.method.parameters (types.map fun e => (crossing e.1 e.2).args) := by
      refine List.forall₂_map_right_iff.mpr ((mapM_eq_ok_iff.mp htypes).imp fun p e he => ?_)
      obtain ⟨t, ht, he⟩ := bind_eq_ok_iff.mp he
      obtain rfl := pure_eq_ok_iff.mp he
      exact ⟨t, ht, rfl⟩
    rw [hargs]
    refine supplies_flatten (mapM_eq_ok_iff.mp hcs) hcrossings ?_
    rintro p - ps args hps ⟨t, ht, rfl⟩
    exact supplies_crossing hps ht
  -- and the one for the result
  have hout : Supplies Passes True (s.out.toList.map (⟨.result ·, outName⟩))
      (if s.out.isSome then [.result] else []) := by
    cases s.out with
    | none => exact .nil
    | some v => exact .single (iff_of_true (.result v) trivial)
  have hall := hparams.append hout
  rw [and_true] at hall
  refine ⟨s, hs, rfl, ?_⟩
  change Supplies Passes _ s.params
    ((types.map fun e => crossing e.1 e.2).flatMap (·.args) ++ if s.out.isSome then [.result] else [])
  rw [List.flatMap_def, List.map_map]
  exact hall

end Kotlin

/-! ### The Swift binding -/

namespace Swift

/-- **The arguments of the Swift binding that fit a parameter of the header.** What a scope
lends is the address of constant data, and the address of a variable is one of data that
can be written. -/
inductive Passes : Param → Arg → Prop
  | text (name ptr : String) : Passes ⟨.text, name⟩ (.borrowed ptr)
  | elements (p : Primitive) (writable : Bool) (name ptr : String) :
    Passes ⟨.elements p writable, name⟩ (.elements ptr)
  | length (name ptr : String) : Passes ⟨.length, name⟩ (.count ptr)
  | receiver (type name : String) : Passes ⟨.value (.handle type), name⟩ .receiver
  | handle (type name ident : String) : Passes ⟨.value (.handle type), name⟩ (.handle ident)
  | scalar (p : Primitive) (name ident : String) :
    Passes ⟨.value (.primitive p), name⟩ (.plain ident)
  | schema (type name ident : String) : Passes ⟨.value (.schema type), name⟩ (.plain ident)
  | borrowed (type name ptr : String) : Passes ⟨.pointer type false, name⟩ (.borrowed ptr)
  | address (type name ident : String) : Passes ⟨.pointer type true, name⟩ (.address ident)
  | result (v : ValueType) : Passes ⟨.result v, outName⟩ .result

/-- A plain argument fits a schema type exactly when it is passed by value. -/
theorem passes_plain_iff {type name ident : String} {transfer : Transfer} :
    Passes ⟨schemaArg type transfer, name⟩ (.plain ident) ↔ transfer = .value := by
  cases transfer with
  | value => exact iff_of_true (.schema type name ident) rfl
  | ref | refMut => exact iff_of_false nofun nofun

/-- What one parameter takes, if it is no union. -/
theorem supplies_lower {ctx : Context} {p : Parameter} {ps : List Param} {l : Lowered}
    (hps : Abi.lower p = .ok ps) (hl : lower ctx p = .ok l)
    (hunion : ∀ q d, p.typeRef? = some (.qualified q) → ctx.types.get? q = some d →
      d.kind ≠ .union) :
    Supplies Passes (Unborrowed ctx.types p) ps l.args := by
  obtain ⟨form, hform, hps⟩ := bind_eq_ok_iff.mp hps
  obtain ⟨form', hform', hl⟩ := bind_eq_ok_iff.mp hl
  obtain rfl := Except.ok.inj (hform.symm.trans hform')
  have href : p.typeRef? = some form := classify_eq_ok_iff.mp hform
  cases form with
  | string =>
    obtain rfl := pure_eq_ok_iff.mp hps
    obtain rfl := pure_eq_ok_iff.mp hl
    exact .single (iff_of_true (.text p.name _) (unborrowed_of_form href nofun))
  | buffer element =>
    obtain rfl := pure_eq_ok_iff.mp hps
    have hpair (ptr : String) : Supplies Passes (Unborrowed ctx.types p)
        [⟨.elements element p.effectiveTransfer.isMut, p.name⟩, ⟨.length, lengthName p.name⟩]
        [.elements ptr, .count ptr] :=
      ((Supplies.single (iff_of_true (.elements element _ p.name ptr) trivial)).append
        (.single (iff_of_true (.length _ ptr) trivial))).congr
        (iff_of_true (And.intro trivial trivial) (unborrowed_of_form href nofun))
    -- the scope around the call depends on the transfer, the arguments do not
    dsimp only at hl
    split at hl
    · obtain rfl := pure_eq_ok_iff.mp hl
      exact hpair _
    · obtain rfl := pure_eq_ok_iff.mp hl
      exact hpair _
  | handle handle =>
    obtain rfl := pure_eq_ok_iff.mp hps
    obtain rfl := pure_eq_ok_iff.mp hl
    exact .single (iff_of_true (.handle handle p.name _) (unborrowed_of_form href nofun))
  | primitive q =>
    obtain rfl := pure_eq_ok_iff.mp hps
    obtain rfl := pure_eq_ok_iff.mp hl
    exact .single (iff_of_true (.scalar q p.name _) (unborrowed_of_form href nofun))
  | qualified q =>
    obtain rfl := pure_eq_ok_iff.mp hps
    obtain ⟨d, hd, hl⟩ := bind_eq_ok_iff.mp hl
    have hget := typeDef_eq_ok_iff.mp hd
    rw [unborrowed_iff href, Schema.isEnum, hget, Option.any_some]
    cases hrecord : d.isRecord with
    | true =>
      have henum : ¬ d.isEnum = true := by
        intro henum
        cases hkind : d.kind <;> simp [TypeDef.isRecord, TypeDef.isEnum, hkind] at hrecord henum
      have hfree : d.isEnum = true → p.effectiveTransfer = .value := fun h => absurd h henum
      -- a record follows its transfer
      cases htransfer : p.effectiveTransfer <;> simp only [hrecord, htransfer] at hl <;>
        obtain rfl := pure_eq_ok_iff.mp hl
      · exact .single (iff_of_true (.schema q p.name _) (htransfer ▸ hfree))
      · exact .single (iff_of_true (.borrowed q p.name _) (htransfer ▸ hfree))
      · exact .single (iff_of_true (.address q p.name _) (htransfer ▸ hfree))
    | false =>
      have henum : d.isEnum = true := by
        have hkind := hunion q d href hget
        cases hk : d.kind <;> simp_all [TypeDef.isRecord, TypeDef.isEnum]
      simp only [hrecord] at hl
      obtain rfl := pure_eq_ok_iff.mp hl
      rw [forall_prop_of_true henum]
      exact .single passes_plain_iff

/-- A method on a handle has a parameter in front that is the handle. -/
theorem exists_of_leadingHandle? {m : Method} {handle : String}
    (h : m.leadingHandle? = some handle) :
    ∃ p rest, m.parameters = p :: rest ∧ p.typeRef? = some (.handle handle) := by
  rw [Method.leadingHandle?] at h
  obtain ⟨t, ht, hname⟩ := Option.bind_eq_some_iff.mp h
  obtain ⟨p, hp, href⟩ := Option.bind_eq_some_iff.mp ht
  obtain ⟨rest, hrest⟩ := List.head?_eq_some_iff.mp hp
  cases t with
  | handle name =>
    obtain rfl := Option.some.inj hname
    exact ⟨p, rest, hrest, href⟩
  | string | buffer _ | primitive _ | qualified _ => cases hname

/-- No parameter of a valid operation is a union. -/
theorem ne_union_of_mem_operations {a : Api} {types : Schema} (h : Conforms a (some types))
    {op : Operation} (hop : op ∈ a.operations) {p : Parameter} (hp : p ∈ op.method.parameters)
    {q : String} {d : TypeDef} (href : p.typeRef? = some (.qualified q))
    (hd : types.get? q = some d) : d.kind ≠ .union := by
  have hs := namedInPascalCase_of_handles (some types) h.handlesPascal
  have hok := (methodOk_of_mem_operations h hop).parameters p hp
  obtain ⟨t, ht, hadmits⟩ := hok.exists_typeRef hs
  rw [Parameter.typeRef?, ht] at href
  obtain rfl := Option.some.inj href
  obtain ⟨d', hd', hkind⟩ := hadmits types rfl
  rw [hd] at hd'
  obtain rfl := Option.some.inj hd'
  exact hkind

/-- What several parameters of a valid operation take. -/
theorem supplies_lowered {ctx : Context} (valid : Conforms ctx.api (some ctx.types))
    {op : Operation} (hop : op ∈ ctx.api.operations) {ps : List Parameter}
    (hps : ∀ p ∈ ps, p ∈ op.method.parameters) {cs : List (List Param)} {ls : List Lowered}
    (hcs : List.Forall₂ (fun p c => Abi.lower p = .ok c) ps cs)
    (hls : ps.mapM (lower ctx) = .ok ls) :
    Supplies Passes (∀ p ∈ ps, Unborrowed ctx.types p) cs.flatten (ls.flatMap (·.args)) := by
  have hargs : List.Forall₂ (fun p args => ∃ l, lower ctx p = .ok l ∧ args = l.args) ps
      (ls.map (·.args)) :=
    List.forall₂_map_right_iff.mpr ((mapM_eq_ok_iff.mp hls).imp fun p l hl => ⟨l, hl, rfl⟩)
  rw [List.flatMap_def]
  refine supplies_flatten hcs hargs ?_
  rintro p hp c args hc ⟨l, hl, rfl⟩
  exact supplies_lower hc hl fun q d => ne_union_of_mem_operations valid hop (hps p hp)

/-- The symbol and the arguments of a function. -/
theorem exists_of_function {ctx : Context} {isStatic : Bool} {op : Operation} {f : Function}
    (h : Function.ofOperation ctx isStatic op = .ok f) :
    f.symbol = op.symbol ctx.apiName ∧ ∃ ls,
      (if isStatic then op.method.parameters else op.method.parameters.drop 1).mapM (lower ctx)
        = .ok ls ∧
      f.args = (if isStatic then [] else [.receiver]) ++ ls.flatMap (·.args)
        ++ if op.method.shape = .fallibleValue then [.result] else [] := by
  obtain ⟨ls, hls, h⟩ := bind_eq_ok_iff.mp h
  -- the result has no say in the arguments
  dsimp only at h
  split at h
  · obtain rfl := pure_eq_ok_iff.mp h
    exact ⟨rfl, ls, hls, rfl⟩
  · obtain ⟨result, -, h⟩ := bind_eq_ok_iff.mp h
    obtain rfl := pure_eq_ok_iff.mp h
    exact ⟨rfl, ls, hls, rfl⟩

/-- The receiver stands for a parameter that is a handle. -/
theorem supplies_receiver (types : Schema) {p : Parameter} {ps : List Param} {handle : String}
    (hps : Abi.lower p = .ok ps) (href : p.typeRef? = some (.handle handle)) :
    Supplies Passes (Unborrowed types p) ps [.receiver] := by
  obtain ⟨form, hform, hps⟩ := bind_eq_ok_iff.mp hps
  rw [classify_eq_ok_iff, ← Parameter.typeRef?, href] at hform
  obtain rfl := Option.some.inj hform
  obtain rfl := pure_eq_ok_iff.mp hps
  have hunborrowed : Unborrowed types p := by
    refine unborrowed_of_form href ?_
    rintro q ⟨⟩
  exact .single (iff_of_true (.receiver handle p.name) hunborrowed)

/-- The argument for the result. -/
theorem supplies_result {symbol : String} {m : Method} {s : Signature}
    (h : Signature.ofMethod symbol m = .ok s) :
    Supplies Passes True (s.out.toList.map (⟨.result ·, outName⟩))
      (if m.shape = .fallibleValue then [.result] else []) := by
  have hshape : m.shape = .fallibleValue ↔ s.out.isSome := by
    rw [isSome_out_iff h, PassesResult, Method.shape]
    cases m.error <;> cases m.returns <;> simp
  simp only [hshape]
  cases s.out with
  | none => exact .nil
  | some v => exact .single (iff_of_true (.result v) trivial)

/-- **A function of the Swift binding calls the function of the header**, with as many
arguments, and they fit exactly when no enumeration is borrowed. -/
theorem supplies_of_function {ctx : Context} (valid : Conforms ctx.api (some ctx.types))
    {op : Operation} (hop : op ∈ ctx.api.operations) {isStatic : Bool}
    (hreceiver : isStatic = false → ∃ handle, op.method.leadingHandle? = some handle)
    {f : Function} (h : Function.ofOperation ctx isStatic op = .ok f) :
    ∃ s, Signature.ofOperation ctx.apiName op = .ok s ∧ f.symbol = s.symbol ∧
      Supplies Passes (EnumsByValue ctx.types op.method) s.params f.args := by
  obtain ⟨s, hs⟩ := exists_signature valid hop
  obtain ⟨hsymbol, ⟨cs, hcs, hargs⟩, -⟩ := exists_of_ofMethod hs
  obtain ⟨hsymbol', ls, hls, hargs'⟩ := exists_of_function h
  have hcs' := mapM_eq_ok_iff.mp hcs
  refine ⟨s, hs, hsymbol'.trans hsymbol.symm, ?_⟩
  -- the arguments for the parameters, with or without a receiver
  have hparams : Supplies Passes (EnumsByValue ctx.types op.method) s.args
      ((if isStatic then [] else [.receiver]) ++ ls.flatMap (·.args)) := by
    rw [hargs]
    cases isStatic with
    | true => exact supplies_lowered valid hop (fun _ => id) hcs' hls
    | false =>
      obtain ⟨handle, hhandle⟩ := hreceiver rfl
      obtain ⟨p, rest, hparameters, href⟩ := exists_of_leadingHandle? hhandle
      have hrest : ∀ p' ∈ rest, p' ∈ op.method.parameters := by
        rw [hparameters]
        exact fun p' => List.mem_cons_of_mem p
      rw [if_neg Bool.false_ne_true, hparameters, List.drop_one, List.tail_cons] at hls
      rw [hparameters] at hcs'
      cases hcs' with
      | cons hlower hothers =>
        have hall := (supplies_receiver ctx.types hlower href).append
          (supplies_lowered valid hop hrest hothers hls)
        refine hall.congr ?_
        rw [EnumsByValue, hparameters, List.forall_mem_cons]
  have hall := hparams.append (supplies_result hs)
  rw [and_true] at hall
  rw [hargs']
  exact hall

/-- **The end of a handle's life calls the destructor** with the handle, which is what the
header declares. -/
theorem supplies_deinit {ctx : Context} (valid : Conforms ctx.api (some ctx.types))
    {handle symbol : String} (h : ctx.api.destructorSymbol? handle = some symbol) :
    ∃ op ∈ ctx.api.operations, ∃ s, Signature.ofOperation ctx.apiName op = .ok s ∧
      symbol = s.symbol ∧
      Supplies Passes (EnumsByValue ctx.types op.method) s.params [.receiver] := by
  obtain ⟨i, howner, rfl⟩ := Option.map_eq_some_iff.mp h
  have hi : i ∈ ctx.api.interfaces := List.mem_of_find?_eq_some howner
  have hhandle : i.constructedHandle? = some handle := by simpa using List.find?_some howner
  have hop : ⟨i, .destructor, Interface.destructorOf handle⟩ ∈ ctx.api.operations :=
    mem_operations_of_mem hi (mem_operations_iff.mpr (.inr (.inl ⟨handle, hhandle, rfl⟩)))
  obtain ⟨s, hs⟩ := exists_signature valid hop
  obtain ⟨hsymbol, ⟨cs, hcs, hargs⟩, hout, -⟩ := exists_of_ofMethod hs
  refine ⟨_, hop, s, hs, hsymbol.symm, ?_⟩
  have hnone : s.out = none := by simpa using hout
  rw [Signature.params, hargs, hnone, Option.toList_none, List.map_nil, List.append_nil]
  -- the only parameter is the handle, and it has the form of one since it was lowered
  cases mapM_eq_ok_iff.mp hcs with
  | cons hlower hrest =>
    cases hrest
    obtain ⟨form, hform, -⟩ := bind_eq_ok_iff.mp hlower
    have href : TypeRef.ofString? ("handle:" ++ handle) = some (.handle handle) := by
      rw [classify_eq_ok_iff, TypeRef.ofString?_handle] at hform
      rw [TypeRef.ofString?_handle]
      split at hform
      next hpascal => rw [if_pos hpascal]
      next => cases hform
    rw [List.flatten_cons, List.flatten_nil, List.append_nil]
    refine (supplies_receiver ctx.types hlower href).congr ?_
    simp [EnumsByValue, Interface.destructorOf]

/-- **The calls of the C interface in the Swift file**: symbols and arguments. -/
def Source.calls (source : Source) : List (String × List Arg) :=
  source.classes.flatMap (fun c =>
      c.destructor.toList.map (·, [.receiver]) ++ c.functions.map fun f => (f.symbol, f.args))
    ++ source.free.map fun f => (f.symbol, f.args)

/-- Every call in the Swift file calls a function of the header. -/
theorem supplies_of_mem_calls {ctx : Context} (valid : Conforms ctx.api (some ctx.types))
    {source : Source} (h : Source.ofContext ctx = .ok source) {call : String × List Arg}
    (hcall : call ∈ source.calls) :
    ∃ op ∈ ctx.api.operations, ∃ s, Signature.ofOperation ctx.apiName op = .ok s ∧
      call.1 = s.symbol ∧
      Supplies Passes (EnumsByValue ctx.types op.method) s.params call.2 := by
  obtain ⟨errors, -, h⟩ := bind_eq_ok_iff.mp h
  obtain ⟨classes, hclasses, h⟩ := bind_eq_ok_iff.mp h
  obtain ⟨free, hfree, h⟩ := bind_eq_ok_iff.mp h
  obtain rfl := pure_eq_ok_iff.mp h
  -- a function among the results of a list of operations
  have hmade {ops : List Operation} {fs : List Function} {isStatic : Bool}
      (hfs : ops.mapM (Function.ofOperation ctx isStatic) = .ok fs)
      (hops : ∀ op ∈ ops, op ∈ ctx.api.operations ∧
        (isStatic = false → ∃ handle, op.method.leadingHandle? = some handle))
      {f : Function} (hf : f ∈ fs) :
      ∃ op ∈ ctx.api.operations, ∃ s, Signature.ofOperation ctx.apiName op = .ok s ∧
        f.symbol = s.symbol ∧
        Supplies Passes (EnumsByValue ctx.types op.method) s.params f.args := by
    obtain ⟨op, hop, hofOp⟩ := exists_mem_of_forall₂ (mapM_eq_ok_iff.mp hfs).flip hf
    exact ⟨op, (hops op hop).1, supplies_of_function valid (hops op hop).1 (hops op hop).2 hofOp⟩
  rcases List.mem_append.mp hcall with hcall | hcall
  · obtain ⟨c, hc, hcall⟩ := List.mem_flatMap.mp hcall
    obtain ⟨handle, hhandle, hc⟩ := exists_mem_of_forall₂ (mapM_eq_ok_iff.mp hclasses).flip hc
    obtain ⟨makers, hmakers, hc⟩ := bind_eq_ok_iff.mp hc
    obtain ⟨others, hothers, hc⟩ := bind_eq_ok_iff.mp hc
    obtain rfl := pure_eq_ok_iff.mp hc
    rcases List.mem_append.mp hcall with hcall | hcall
    · obtain ⟨symbol, hsymbol, rfl⟩ := List.mem_map.mp hcall
      exact supplies_deinit valid (Option.mem_toList.mp hsymbol)
    · obtain ⟨f, hf, rfl⟩ := List.mem_map.mp hcall
      rcases List.mem_append.mp hf with hf | hf
      · exact hmade hmakers (fun op hop => ⟨List.mem_of_mem_filter hop, nofun⟩) hf
      · refine hmade hothers (fun op hop => ?_) hf
        obtain ⟨hop, hmethod⟩ := List.mem_filter.mp hop
        rw [Bool.and_eq_true, beq_iff_eq] at hmethod
        exact ⟨hop, fun _ => ⟨_, hmethod.2⟩⟩
  · obtain ⟨f, hf, rfl⟩ := List.mem_map.mp hcall
    exact hmade hfree (fun op hop => ⟨List.mem_of_mem_filter hop, nofun⟩) hf

end Swift

/-! ### Both callers -/

/-- **Every call follows the header as far as enumerations are passed by value.** In the
bridge and in the Swift binding of a valid description, each call names a function of the
header and passes as many arguments as it has parameters. The arguments fit the parameters,
addresses for pointers and values for values, exactly when the operation borrows no
enumeration. -/
theorem calls_follow_header {ctx : Context} (valid : ctx.api.validate (some ctx.types) = [])
    {file : Kotlin.BridgeFile} (kotlin : Kotlin.BridgeFile.ofContext ctx = .ok file)
    {source : Swift.Source} (swift : Swift.Source.ofContext ctx = .ok source) :
    (∀ e ∈ file.bridges, ∀ b ∈ e.2, ∃ op ∈ ctx.api.operations,
      ∃ s, Signature.ofOperation ctx.apiName op = .ok s ∧ b.callee = s.symbol ∧
        Supplies Kotlin.Passes (EnumsByValue ctx.types op.method) s.params b.args) ∧
    ∀ call ∈ source.calls, ∃ op ∈ ctx.api.operations,
      ∃ s, Signature.ofOperation ctx.apiName op = .ok s ∧ call.1 = s.symbol ∧
        Supplies Swift.Passes (EnumsByValue ctx.types op.method) s.params call.2 := by
  refine ⟨fun e he b hb => ?_, fun call hcall => ?_⟩
  -- A bridge of the file belongs to an operation of its interface.
  · obtain ⟨builders, -, h⟩ := bind_eq_ok_iff.mp kotlin
    obtain ⟨readers, -, h⟩ := bind_eq_ok_iff.mp h
    obtain ⟨bridges, hbridges, h⟩ := bind_eq_ok_iff.mp h
    obtain rfl := pure_eq_ok_iff.mp h
    obtain ⟨i, hi, h⟩ := exists_mem_of_forall₂ (mapM_eq_ok_iff.mp hbridges).flip he
    obtain ⟨bs, hbs, h⟩ := bind_eq_ok_iff.mp h
    obtain rfl := pure_eq_ok_iff.mp h
    obtain ⟨op, hop, hbridge⟩ := exists_mem_of_forall₂ (mapM_eq_ok_iff.mp hbs).flip hb
    exact ⟨op, mem_operations_of_mem hi hop, Kotlin.supplies_of_bridge hbridge⟩
  · exact Swift.supplies_of_mem_calls (conforms_of_validate valid) swift hcall

/-- A description whose operations pass schema types in every way but one. -/
def boardContext : Context where
  api :=
    { metadata := { name := "demo", version := "1.0.0", language := .rust }
      schemas := ["demo.fbs"]
      handles := [{ name := "Board" }]
      interfaces := [
        { name := "board"
          constructors := [
            { name := "create", returns := some { type := "handle:Board" },
              error := some "Outcome" }]
          methods := [
            { name := "draw"
              parameters := [⟨"board", "handle:Board", none, none⟩, ⟨"mode", "Mode", none, none⟩,
                ⟨"from", "Dot", some .ref, none⟩, ⟨"to", "Dot", some .refMut, none⟩,
                ⟨"data", "buffer<uint8>", some .ref, none⟩]
              returns := some { type := "Dot" }
              error := some "Outcome" }] }] }
  types := ((Keyed.empty.insert "Mode" { kind := .enum, values := [⟨"Off", 0⟩] }).insert
    "Outcome" { kind := .enum, values := [⟨"Ok", 0⟩, ⟨"Failed", 1⟩] }).insert
    "Dot" { kind := .struct, fields := [⟨"x", .primitive .float32⟩] }

theorem calls_follow_header_board :
    boardContext.api.validate (some boardContext.types) = [] ∧
      ∃ file source, Kotlin.BridgeFile.ofContext boardContext = .ok file ∧
        Swift.Source.ofContext boardContext = .ok source ∧
        (∀ e ∈ file.bridges, ∀ b ∈ e.2, ∃ op ∈ boardContext.api.operations,
          ∃ s, Signature.ofOperation boardContext.apiName op = .ok s ∧ b.callee = s.symbol ∧
            Supplies Kotlin.Passes (EnumsByValue boardContext.types op.method) s.params b.args) ∧
        ∀ call ∈ source.calls, ∃ op ∈ boardContext.api.operations,
          ∃ s, Signature.ofOperation boardContext.apiName op = .ok s ∧ call.1 = s.symbol ∧
            Supplies Swift.Passes (EnumsByValue boardContext.types op.method) s.params call.2 := by
  have hvalid : boardContext.api.validate (some boardContext.types) = [] := by decide
  obtain ⟨file, hfile⟩ : ∃ file, Kotlin.BridgeFile.ofContext boardContext = .ok file :=
    exists_ok_of_isOk (by cbv)
  obtain ⟨source, hsource⟩ : ∃ source, Swift.Source.ofContext boardContext = .ok source :=
    exists_ok_of_isOk (by decide)
  exact ⟨hvalid, file, source, hfile, hsource, calls_follow_header hvalid hfile hsource⟩

/-! ### A borrowed enumeration -/

/-- A description with an enumeration that is borrowed. -/
def modeContext : Context where
  api :=
    { metadata := { name := "demo", version := "1.0.0", language := .rust }
      schemas := ["demo.fbs"]
      interfaces := [
        { name := "scene"
          methods := [
            { name := "set_mode", parameters := [⟨"mode", "Mode", some .ref, none⟩] }] }] }
  types := Keyed.empty.insert "Mode"
    { kind := .enum, base := some .int32, values := [⟨"Off", 0⟩, ⟨"On", 1⟩] }

/-- **A valid description whose callers do not follow the header**: the header declares a
pointer to the enumeration, and both callers pass its value. -/
theorem borrowed_modeContext :
    Api.ofDocument modeContext.api.toJson = .ok modeContext.api ∧
      modeContext.api.validate (some modeContext.types) = [] ∧
      (modeContext.api.operations.mapM fun op => (Signature.ofOperation modeContext.apiName op).map
        fun s => s.params.map Param.declaration) = .ok [["const Mode* mode"]] ∧
      (Kotlin.BridgeFile.ofContext modeContext).map
        (fun file => file.bridges.flatMap fun e => e.2.map Kotlin.Bridge.call) =
          .ok ["demo_scene_set_mode((Mode)mode);"] ∧
      (Swift.Source.ofContext modeContext).map (fun source => source.free.map Swift.Function.call) =
        .ok ["demo_scene_set_mode(mode)"] :=
  ⟨ofDocument_eq_ok_iff.mpr (by decide), by decide, by decide, by cbv,
    by decide⟩

end Bindery
