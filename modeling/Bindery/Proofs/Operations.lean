import Bindery.Abi.Signature
import Bindery.Proofs.Conformance
import Bindery.Proofs.Success

/-!
# The operations of a valid description

Validation looks at the constructors and methods that a description writes. The emitters
work on operations, among which there are also destructors, which nobody writes. This
module carries the rules over:

* `methodOk_of_mem_operations` — every operation obeys the rules of a method. A destructor
  does because its one parameter is a handle that some constructor returns, and so one
  that is declared;
* `ParameterOk.exists_typeRef` and `ReturnOk.exists_typeRef` — a type that passed
  validation has a form, and the form is one that can cross (`Admits`, `Yields`);
* `exists_signature` — hence every operation has a signature;
* `exists_of_ofMethod` — what a signature is made of. It says in one place what other
  definitions of the same function are compared with.
-/

namespace Bindery

/-! ### The operations of an interface -/

/-- **The three kinds of operations** and where they come from. -/
theorem mem_operations_iff {i : Interface} {op : Operation} :
    op ∈ i.operations ↔
      (∃ c ∈ i.constructors, op = ⟨i, .constructor, c⟩) ∨
      (∃ h, i.constructedHandle? = some h ∧ op = ⟨i, .destructor, Interface.destructorOf h⟩) ∨
      ∃ m ∈ i.methods, op = ⟨i, .method, m⟩ := by
  rw [Interface.operations, List.mem_append, List.mem_append, or_assoc]
  simp only [List.mem_map, Interface.destructor?, Option.mem_toList, Option.map_eq_some_iff]
  constructor
  · rintro (⟨c, hc, rfl⟩ | ⟨d, ⟨h, hh, rfl⟩, rfl⟩ | ⟨m, hm, rfl⟩)
    · exact .inl ⟨c, hc, rfl⟩
    · exact .inr (.inl ⟨h, hh, rfl⟩)
    · exact .inr (.inr ⟨m, hm, rfl⟩)
  · rintro (⟨c, hc, rfl⟩ | ⟨h, hh, rfl⟩ | ⟨m, hm, rfl⟩)
    · exact .inl ⟨c, hc, rfl⟩
    · exact .inr (.inl ⟨_, ⟨h, hh, rfl⟩, rfl⟩)
    · exact .inr (.inr ⟨m, hm, rfl⟩)

theorem mem_operations_of_mem {a : Api} {i : Interface} (hi : i ∈ a.interfaces) {op : Operation}
    (hop : op ∈ i.operations) : op ∈ a.operations :=
  List.mem_flatMap.mpr ⟨i, hi, hop⟩

namespace Validate

/-! ### Forms that can cross -/

/-- The forms that a parameter may have. -/
def Scope.Admits (s : Scope) : TypeRef → Prop
  | .string | .buffer _ | .primitive _ => True
  | .handle name => name ∈ s.handles
  | .qualified name => s.Knows (fun d => d.kind ≠ .union) name

/-- The forms that a result may have. -/
def Scope.Yields (s : Scope) : TypeRef → Prop
  | .string | .buffer _ => False
  | t => s.Admits t

variable {s : Scope}

/-- **The type of a valid parameter has a form.** -/
theorem Scope.ParameterOk.exists_typeRef (hs : NamedInPascalCase s) {p : Parameter}
    (h : s.ParameterOk p) : ∃ t, TypeRef.ofString? p.type = some t ∧ s.Admits t := by
  cases h with
  | buffer element type numeric transfer =>
    exact ⟨.buffer element, TypeRef.ofString?_eq_some_iff.mpr ⟨type, numeric⟩, trivial⟩
  | primitive q type =>
    exact ⟨.primitive q, TypeRef.ofString?_eq_some_iff.mpr ⟨type, trivial⟩, trivial⟩
  | string type transfer =>
    exact ⟨.string, TypeRef.ofString?_eq_some_iff.mpr ⟨type, trivial⟩, trivial⟩
  | handle name type declared transfer =>
    exact ⟨.handle name, TypeRef.ofString?_eq_some_iff.mpr ⟨type, hs name declared⟩, declared⟩
  | schema crosses =>
    exact ⟨.qualified p.type, TypeRef.ofString?_eq_some_iff.mpr ⟨rfl, crosses.1⟩, crosses.2⟩

/-- **The type of a valid result has a form.** -/
theorem Scope.ReturnOk.exists_typeRef (hs : NamedInPascalCase s) {type : String}
    (h : s.ReturnOk type) : ∃ t, TypeRef.ofString? type = some t ∧ s.Yields t := by
  cases h with
  | primitive q htype =>
    exact ⟨.primitive q, TypeRef.ofString?_eq_some_iff.mpr ⟨htype, trivial⟩, trivial⟩
  | handle name htype declared =>
    exact ⟨.handle name, TypeRef.ofString?_eq_some_iff.mpr ⟨htype, hs name declared⟩, declared⟩
  | schema crosses =>
    exact ⟨.qualified type, TypeRef.ofString?_eq_some_iff.mpr ⟨rfl, crosses.1⟩, crosses.2⟩

/-! ### Every operation obeys the rules of a method -/

/-- The destructor of a declared handle obeys the rules of a method. -/
theorem methodOk_destructorOf {handle : String} (h : handle ∈ s.handles) :
    s.MethodOk (Interface.destructorOf handle) where
  parameters := by
    intro p hp
    obtain rfl := List.mem_singleton.mp hp
    exact .handle handle rfl h (.inl rfl)
  returns := nofun
  error := nofun

/-- A handle that a valid method makes is declared. -/
theorem mem_handles_of_makes {m : Method} (h : s.MethodOk m) {handle : String}
    (hmakes : Makes m handle) (hs : NamedInPascalCase s) : handle ∈ s.handles := by
  obtain ⟨r, hr, htype⟩ := hmakes
  obtain ⟨t, ht, hyields⟩ := (h.returns r hr).exists_typeRef hs
  -- the text begins with `handle:`, so it is read as a handle or not at all
  rw [htype, TypeRef.ofString?_handle] at ht
  split at ht
  · obtain rfl := Option.some.inj ht
    exact hyields
  · cases ht

/-- The operations of one interface obey the rules of a method. -/
theorem methodOk_of_interfaceOk (hs : NamedInPascalCase s) {i : Interface} (h : s.InterfaceOk i)
    {op : Operation} (hop : op ∈ i.operations) : s.MethodOk op.method := by
  rcases mem_operations_iff.mp hop with ⟨c, hc, rfl⟩ | ⟨handle, hhandle, rfl⟩ | ⟨m, hm, rfl⟩
  · exact (h.constructors c hc).toMethodOk
  · -- the handle of a destructor is one that a constructor makes
    obtain ⟨c, hc, hmakes⟩ :=
      (constructedHandle?_eq_some_iff hs h.constructors h.oneHandle).mp hhandle
    exact methodOk_destructorOf (mem_handles_of_makes (h.constructors c hc).toMethodOk hmakes hs)
  · exact h.methods m hm

variable {a : Api} {types : Option Schema}

/-- What validation looks at in a description. -/
abbrev scopeOf (a : Api) (types : Option Schema) : Scope := ⟨a.handles.map (·.name), types⟩

/-- **Every operation of a valid description obeys the rules of a method.** -/
theorem methodOk_of_mem_operations (h : Conforms a types) {op : Operation}
    (hop : op ∈ a.operations) : (scopeOf a types).MethodOk op.method := by
  obtain ⟨i, hi, hop⟩ := List.mem_flatMap.mp hop
  have hs := namedInPascalCase_of_handles types h.handlesPascal
  exact methodOk_of_interfaceOk hs (h.interfaces i hi) hop

end Validate

/-! ### Signatures -/

namespace Abi

open Validate

/-- A form that can be returned is the type of a value. -/
theorem exists_valueType {s : Scope} {ty : String} {t : TypeRef}
    (h : TypeRef.ofString? ty = some t) (hyields : s.Yields t) :
    ∃ v, ValueType.ofText ty = .ok v := by
  rw [ValueType.ofText, h]
  cases t with
  | string | buffer _ => exact hyields.elim
  | handle name => exact ⟨.handle name, rfl⟩
  | primitive q => exact ⟨.primitive q, rfl⟩
  | qualified name => exact ⟨.schema name, rfl⟩

/-- A parameter with a form can be lowered. -/
theorem exists_lower {p : Parameter} {t : TypeRef} (h : TypeRef.ofString? p.type = some t) :
    ∃ ps, lower p = .ok ps := by
  rw [lower, classify_eq_ok_iff.mpr h]
  cases t <;> exact ⟨_, rfl⟩

/-- **A method that obeys the rules has a signature.** -/
theorem exists_signature_of_methodOk {s : Scope} (hs : NamedInPascalCase s) {m : Method}
    (h : s.MethodOk m) (symbol : String) : ∃ sig, Signature.ofMethod symbol m = .ok sig := by
  obtain ⟨chunks, hchunks⟩ : ∃ chunks, m.parameters.mapM lower = .ok chunks := by
    refine exists_mapM_eq_ok fun p hp => ?_
    obtain ⟨t, ht, -⟩ := (h.parameters p hp).exists_typeRef hs
    exact exists_lower ht
  rw [Signature.ofMethod, hchunks]
  -- Without an error the result is the answer; with one it moves to a place of its own.
  cases hreturns : m.returns with
  | none => cases m.error <;> exact ⟨_, rfl⟩
  | some r =>
    obtain ⟨t, ht, hyields⟩ := (h.returns r hreturns).exists_typeRef hs
    obtain ⟨v, hv⟩ := exists_valueType ht hyields
    have step {f : ValueType → Signature} :
        (ValueType.ofText r.type >>= fun v => pure (f v)) = .ok (f v) :=
      bind_eq_ok_iff.mpr ⟨v, hv, rfl⟩
    cases m.error <;> exact ⟨_, step⟩

/-- The method hands its result over through the trailing pointer. -/
def PassesResult (m : Method) : Prop := m.error.isSome ∧ m.returns.isSome

instance (m : Method) : Decidable (PassesResult m) := inferInstanceAs (Decidable (_ ∧ _))

/-- How a function ends under the four ways of answering: what stands behind the parameters
of the operation, and what is returned. -/
def Ends {ν π α : Type} (value : String → Except Fault ν) (pointer : ν → π) (void status : α)
    (whole : ν → α) (m : Method) (outs : List π) (answer : α) : Prop :=
  match m.error, m.returns with
  | none, none => outs = [] ∧ answer = void
  | some _, none => outs = [] ∧ answer = status
  | none, some r => ∃ v, value r.type = .ok v ∧ outs = [] ∧ answer = whole v
  | some _, some r => ∃ v, value r.type = .ok v ∧ outs = [pointer v] ∧ answer = status

/-- **What a signature is made of.** -/
theorem exists_of_ofMethod {symbol : String} {m : Method} {s : Signature}
    (h : Signature.ofMethod symbol m = .ok s) :
    s.symbol = symbol ∧ (∃ cs, m.parameters.mapM lower = .ok cs ∧ s.args = cs.flatten) ∧
      Ends ValueType.ofText id .void .status .value m s.out.toList s.answer := by
  obtain ⟨cs, hcs, h⟩ := bind_eq_ok_iff.mp h
  unfold Ends
  -- Each of the four ways to end is its own line of the definition.
  cases herror : m.error <;> cases hreturns : m.returns <;>
    simp only [herror, hreturns, bind_eq_ok_iff, pure_eq_ok_iff] at h
  · subst h
    exact ⟨rfl, ⟨cs, hcs, rfl⟩, rfl, rfl⟩
  · obtain ⟨v, hv, rfl⟩ := h
    exact ⟨rfl, ⟨cs, hcs, rfl⟩, v, hv, rfl, rfl⟩
  · subst h
    exact ⟨rfl, ⟨cs, hcs, rfl⟩, rfl, rfl⟩
  · obtain ⟨v, hv, rfl⟩ := h
    exact ⟨rfl, ⟨cs, hcs, rfl⟩, v, hv, rfl, rfl⟩

/-- There is a trailing pointer exactly for a result that can fail to come. -/
theorem isSome_out_iff {symbol : String} {m : Method} {s : Signature}
    (h : Signature.ofMethod symbol m = .ok s) : s.out.isSome ↔ PassesResult m := by
  obtain ⟨-, -, hends⟩ := exists_of_ofMethod h
  unfold Ends at hends
  cases herror : m.error <;> cases hreturns : m.returns <;> cases hout : s.out <;>
    simp_all [PassesResult]

/-- **Every operation of a valid description has a signature.** -/
theorem exists_signature {a : Api} {types : Option Schema} (h : Conforms a types)
    {op : Operation} (hop : op ∈ a.operations) :
    ∃ sig, Signature.ofOperation a.name op = .ok sig :=
  exists_signature_of_methodOk (namedInPascalCase_of_handles types h.handlesPascal)
    (methodOk_of_mem_operations h hop) _

end Abi

end Bindery
