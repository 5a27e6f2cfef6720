import Bindery.Proofs.TypeRef
import Bindery.Validate.Basic

/-!
# What validation accepts

`Conforms` states the rules of a description one by one, without paths, messages or an
order of checking, and on the texts that the description writes. Validation finds
nothing exactly when all of them hold (`validate_eq_nil_iff_conforms`): no rule is
missed, and nothing else is refused.

The checks of the members of a list run from left to right, and some of them look at
the members before. Both ways of walking are opened once:

* `eachFrom_eq_nil_iff` — nothing is found in a list exactly when nothing is found in
  any member;
* `eachAfter_eq_nil_iff` — the same for checks that see the members before, as a
  statement about every way to split the list.

Three rules hold only jointly. A parameter that is a handle is looked for by its form,
so a text such as `handle:lower` passes that check and fails as an unknown type; the
handle that an interface constructs is read off its first constructor, which is as good
as any since all of them make the same one; and a handle has the form of one because
every declared handle is named in Pascal case. This is why the lemmas on types assume
`NamedInPascalCase`.
-/

namespace Bindery.Validate

/-! ### The rules -/

/-- If the schema is known, the type has a definition there that obeys a rule. -/
def Scope.Knows (s : Scope) (rule : TypeDef → Prop) (name : String) : Prop :=
  ∀ types, s.types = some types → ∃ d, types.get? name = some d ∧ rule d

/-- The text of a schema type that can cross the boundary. -/
def Scope.Crosses (s : Scope) (type : String) : Prop :=
  isQualifiedName type = true ∧ s.Knows (fun d => d.kind ≠ .union) type

/-- **The rules for a parameter.** -/
inductive Scope.ParameterOk (s : Scope) (p : Parameter) : Prop where
  | buffer (element : Primitive) (type : p.type = "buffer<" ++ element.name ++ ">")
      (numeric : element ≠ .bool)
      (transfer : p.transfer = some .ref ∨ p.transfer = some .refMut)
  | primitive (q : Primitive) (type : p.type = q.name)
  | string (type : p.type = "string")
      (transfer : p.transfer = none ∨ p.transfer = some .ref)
  | handle (name : String) (type : p.type = "handle:" ++ name) (declared : name ∈ s.handles)
      (transfer : p.transfer = none ∨ p.transfer = some .value)
  | schema (crosses : s.Crosses p.type)

/-- **The rules for a result.** Texts and buffers are not returned. -/
inductive Scope.ReturnOk (s : Scope) (type : String) : Prop where
  | primitive (q : Primitive) (type : type = q.name)
  | handle (name : String) (type : type = "handle:" ++ name) (declared : name ∈ s.handles)
  | schema (crosses : s.Crosses type)

/-- **The rules for constructors and methods alike.** -/
structure Scope.MethodOk (s : Scope) (m : Method) : Prop where
  parameters : ∀ p ∈ m.parameters, s.ParameterOk p
  returns : ∀ r, m.returns = some r → s.ReturnOk r.type
  /-- An error type is an enumeration. -/
  error : ∀ e, m.error = some e → s.Knows (fun d => d.kind = .enum) e

/-- The method returns this handle. -/
def Makes (m : Method) (handle : String) : Prop :=
  ∃ r, m.returns = some r ∧ r.type = "handle:" ++ handle

/-- **The rules for a constructor.** -/
structure Scope.ConstructorOk (s : Scope) (m : Method) : Prop extends s.MethodOk m where
  named : m.name = "create" ∨ ∃ rest, rest ≠ "" ∧ m.name = "create_" ++ rest
  canFail : ∃ e, m.error = some e
  makes : ∃ h, Makes m h
  takesNoHandle : ∀ p ∈ m.parameters, ∀ h, p.type ≠ "handle:" ++ h

/-- **The rules for an interface.** -/
structure Scope.InterfaceOk (s : Scope) (i : Interface) : Prop where
  nonempty : i.constructors ≠ [] ∨ i.methods ≠ []
  constructorNames : (i.constructors.map (·.name)).Nodup
  methodNames : (i.methods.map (·.name)).Nodup
  apart : ∀ m ∈ i.methods, ∀ c ∈ i.constructors, m.name ≠ c.name
  constructors : ∀ c ∈ i.constructors, s.ConstructorOk c
  oneHandle : ∀ c ∈ i.constructors, ∀ c' ∈ i.constructors, ∀ h h',
    Makes c h → Makes c' h' → h = h'
  /-- The name of the destructor is left free. -/
  destructor : ∀ c ∈ i.constructors, ∀ h, Makes c h →
    ∀ m ∈ i.methods, m.name ≠ "destroy_" ++ Naming.handleToSnake h
  methods : ∀ m ∈ i.methods, s.MethodOk m

/-- **The rules for a description**, with the types of a schema or without. -/
structure Conforms (a : Api) (types : Option Schema) : Prop where
  handlesPascal : ∀ h ∈ a.handles, isPascalIdentifier h.name = true
  handleNames : (a.handles.map (·.name)).Nodup
  interfaceNames : (a.interfaces.map (·.name)).Nodup
  interfaces : ∀ i ∈ a.interfaces, Scope.InterfaceOk ⟨a.handles.map (·.name), types⟩ i

/-! ### Walking through lists -/

@[simp] theorem findingIf_eq_nil_iff {bad : Bool} {path : String} {problem : Problem} :
    findingIf bad path problem = [] ↔ bad = false := by
  cases bad <;> simp [findingIf]

/-- Nothing is found in a list exactly when nothing is found in any member. -/
theorem eachFrom_eq_nil_iff {α : Type} {list : String} {f : α → List Finding} {xs : List α}
    {i : Nat} : eachFrom list f i xs = [] ↔ ∀ x ∈ xs, f x = [] := by
  induction xs generalizing i with
  | nil => simp [eachFrom]
  | cons x xs ih =>
    rw [eachFrom, List.append_eq_nil_iff, List.map_eq_nil_iff, ih, List.forall_mem_cons]

/-- Nothing is found in a list exactly when nothing is found in any member, seen after
the members before it. -/
theorem eachAfter_eq_nil_iff {α : Type} {list : String} {f : List α → α → List Finding}
    {xs before : List α} {i : Nat} :
    eachAfter list f i before xs = [] ↔
      ∀ pre x post, xs = pre ++ x :: post → f (before ++ pre) x = [] := by
  -- For every list that was walked before, as it grows by the head at each step.
  induction xs generalizing i before with
  | nil => simp [eachAfter]
  | cons x xs ih =>
    rw [eachAfter, List.append_eq_nil_iff, List.map_eq_nil_iff, ih]
    constructor
    · rintro ⟨hx, hxs⟩ pre y post hsplit
      cases pre with
      -- The element is the head, or it stands in the rest with the head before it.
      | nil =>
        obtain ⟨rfl, -⟩ := List.cons.inj hsplit
        rwa [List.append_nil]
      | cons z pre =>
        obtain ⟨rfl, hrest⟩ := List.cons.inj hsplit
        rw [List.append_cons]
        exact hxs pre y post hrest
    · intro h
      refine ⟨by simpa using h [] x xs rfl, fun pre y post hsplit => ?_⟩
      rw [List.append_assoc]
      exact h (x :: pre) y post (by rw [hsplit, List.cons_append])

/-- A check that does not look back is a check of the members. -/
theorem forall_split_iff {α : Type} {xs : List α} {P : α → Prop} :
    (∀ pre x post, xs = pre ++ x :: post → P x) ↔ ∀ x ∈ xs, P x := by
  constructor
  · intro h x hx
    obtain ⟨pre, post, hsplit⟩ := List.append_of_mem hx
    exact h pre x post hsplit
  · rintro h pre x post rfl
    exact h x (by simp)

/-- Names are distinct exactly when none of them stands before itself. -/
theorem nodup_map_iff_split {α β : Type} {g : α → β} {xs : List α} :
    (xs.map g).Nodup ↔ ∀ pre x post, xs = pre ++ x :: post → g x ∉ pre.map g := by
  constructor
  · rintro h pre x post rfl hx
    rw [List.map_append, List.map_cons, List.nodup_append] at h
    exact h.2.2 (g x) hx (g x) List.mem_cons_self rfl
  · intro h
    induction xs using List.reverseRecOn with
    | nil => exact List.nodup_nil
    | append_singleton xs x ih =>
      -- the last member is after all others, and a split of the others is one of the whole
      have hlast := h xs x [] rfl
      have hinit : (xs.map g).Nodup := ih fun pre y post hsplit =>
        h pre y (post ++ [x]) (by rw [hsplit, List.append_assoc, List.cons_append])
      rw [List.map_append, List.nodup_append]
      refine ⟨hinit, List.nodup_singleton _, ?_⟩
      rintro b hb c hc rfl
      rw [List.map_singleton, List.mem_singleton] at hc
      exact hlast (hc ▸ hb)

/-! ### Types -/

section Types

variable {s : Scope}

/-- Every declared handle is named in Pascal case. -/
def NamedInPascalCase (s : Scope) : Prop := ∀ h ∈ s.handles, isPascalIdentifier h = true

theorem checkHandle_eq_nil_iff {path name : String} :
    s.checkHandle path name = [] ↔ name ∈ s.handles := by
  simp [Scope.checkHandle]

theorem checkQualified_eq_nil_iff {path name : String} :
    s.checkQualified path name = [] ↔ s.Knows (fun d => d.kind ≠ .union) name := by
  obtain ⟨handles, types⟩ := s
  cases types with
  | none => simp [Scope.checkQualified, Scope.Knows]
  | some types => cases h : types.get? name <;> simp [Scope.checkQualified, Scope.Knows, h]

theorem checkError_eq_nil_iff {path name : String} :
    s.checkError path name = [] ↔ s.Knows (fun d => d.kind = .enum) name := by
  obtain ⟨handles, types⟩ := s
  cases types with
  | none => simp [Scope.checkError, Scope.Knows]
  | some types => cases h : types.get? name <;> simp [Scope.checkError, Scope.Knows, h]

/-- A text that names a type of a schema crosses if its check finds nothing. -/
theorem crosses_of_checkQualified {path type name : String}
    (ht : TypeRef.ofString? type = some (.qualified name)) (h : s.checkQualified path name = []) :
    s.Crosses type := by
  obtain ⟨hname, hq⟩ := TypeRef.text_of_ofString? ht
  rw [TypeRef.text] at hname
  subst hname
  exact ⟨hq, checkQualified_eq_nil_iff.mp h⟩

/-- A parameter that passes its checks has one of the five forms. -/
theorem parameterOk_of_checkParameter {p : Parameter} (h : s.checkParameter p = []) :
    s.ParameterOk p := by
  rw [Scope.checkParameter] at h
  split at h
  · next element hb =>
    -- a text in the brackets of a buffer is a buffer or nothing
    rw [List.append_eq_nil_iff, findingIf_eq_nil_iff, findingIf_eq_nil_iff] at h
    obtain ⟨q, hq⟩ := Option.isSome_iff_exists.mp (Option.isNone_eq_false_iff.mp h.1)
    rw [Option.filter_eq_some_iff, Primitive.ofName?_eq_some_iff] at hq
    obtain ⟨rfl, hnum⟩ := hq
    refine .buffer q (TypeRef.bufferElement?_eq_some_iff.mp hb) ?_ ?_
    · simpa [Primitive.isBufferElement] using hnum
    · have ht := h.2
      cases hp : p.transfer with
      | none => simp [hp] at ht
      | some t => cases t <;> simp [hp] at ht ⊢
  · split at h
    · next q ht => exact .primitive q (TypeRef.text_of_ofString? ht).1
    · next ht =>
      refine .string (TypeRef.text_of_ofString? ht).1 ?_
      cases hp : p.transfer with
      | none => exact Or.inl rfl
      | some t => cases t <;> simp [hp] at h ⊢
    · next name ht =>
      rw [List.append_eq_nil_iff, checkHandle_eq_nil_iff, findingIf_eq_nil_iff] at h
      refine .handle name (TypeRef.text_of_ofString? ht).1 h.1 ?_
      have htr := h.2
      cases hp : p.transfer with
      | none => exact Or.inl rfl
      | some t => cases t <;> simp [hp] at htr ⊢
    · next name ht => exact .schema (crosses_of_checkQualified ht h)
    · cases h
    · cases h

/-- A parameter of one of the five forms passes its checks. -/
theorem checkParameter_of_parameterOk (hs : NamedInPascalCase s) {p : Parameter}
    (h : s.ParameterOk p) : s.checkParameter p = [] := by
  -- a buffer is checked by its brackets, and whatever is none by its form
  rw [Scope.checkParameter]
  cases h with
  | buffer element type numeric transfer =>
    have hn : Primitive.ofName? element.name = some element :=
      Primitive.ofName?_eq_some_iff.mpr rfl
    have hnum : element.isBufferElement = true := by simpa [Primitive.isBufferElement] using numeric
    rw [TypeRef.bufferElement?_eq_some_iff.mpr type]
    rcases transfer with ht | ht <;> simp [hn, hnum, ht]
  | primitive q type =>
    obtain ⟨hb, ht⟩ := TypeRef.ofString?_of_text (t := .primitive q) type trivial (by simp)
    simp only [hb, ht]
  | string type transfer =>
    obtain ⟨hb, ht⟩ := TypeRef.ofString?_of_text (t := .string) type trivial (by simp)
    simp only [hb, ht]
    rcases transfer with htr | htr <;> simp [htr]
  | handle name type declared transfer =>
    obtain ⟨hb, ht⟩ :=
      TypeRef.ofString?_of_text (t := .handle name) type (hs name declared) (by simp)
    simp only [hb, ht, List.append_eq_nil_iff, checkHandle_eq_nil_iff]
    refine ⟨declared, ?_⟩
    rcases transfer with htr | htr <;> simp [htr]
  | schema crosses =>
    have htext : p.type = (TypeRef.qualified p.type).text := rfl
    obtain ⟨hb, ht⟩ := TypeRef.ofString?_of_text htext crosses.1 (by simp)
    simp only [hb, ht, checkQualified_eq_nil_iff]
    exact crosses.2

theorem checkParameter_eq_nil_iff (hs : NamedInPascalCase s) {p : Parameter} :
    s.checkParameter p = [] ↔ s.ParameterOk p :=
  ⟨parameterOk_of_checkParameter, checkParameter_of_parameterOk hs⟩

/-- A result that passes its checks has one of the three forms. -/
theorem returnOk_of_checkReturn {type : String} (h : s.checkReturn type = []) :
    s.ReturnOk type := by
  rw [Scope.checkReturn] at h
  split at h
  · cases h
  -- By the form of the type that comes back.
  · split at h
    · next q ht => exact .primitive q (TypeRef.text_of_ofString? ht).1
    · next name ht =>
      rw [checkHandle_eq_nil_iff] at h
      exact .handle name (TypeRef.text_of_ofString? ht).1 h
    · next name ht => exact .schema (crosses_of_checkQualified ht h)
    · cases h

/-- A result of one of the three forms passes its checks. -/
theorem checkReturn_of_returnOk (hs : NamedInPascalCase s) {type : String}
    (h : s.ReturnOk type) : s.checkReturn type = [] := by
  -- the first test refuses texts and buffers, and the three forms are neither
  have hform : ∀ {t : TypeRef}, type = t.text → t.WellFormed → (∀ e, t ≠ .buffer e) →
      t ≠ .string → (¬ (type = "string" ∨ (TypeRef.bufferElement? type).isSome = true)) ∧
        TypeRef.ofString? type = some t := by
    intro t htext hwell hbuf hstr
    obtain ⟨hb, ht⟩ := TypeRef.ofString?_of_text htext hwell hbuf
    refine ⟨?_, ht⟩
    rw [hb]
    rintro (rfl | hsome)
    · exact hstr (Option.some.inj ht).symm
    · cases hsome
  rw [Scope.checkReturn]
  cases h with
  | primitive q htype =>
    obtain ⟨hn, ht⟩ := hform (t := .primitive q) htype trivial nofun nofun
    simp only [if_neg hn, ht]
  | handle name htype declared =>
    obtain ⟨hn, ht⟩ := hform (t := .handle name) htype (hs name declared) nofun nofun
    simp only [if_neg hn, ht, checkHandle_eq_nil_iff]
    exact declared
  | schema crosses =>
    obtain ⟨hn, ht⟩ := hform (t := .qualified type) rfl crosses.1 nofun nofun
    simp only [if_neg hn, ht, checkQualified_eq_nil_iff]
    exact crosses.2

theorem checkReturn_eq_nil_iff (hs : NamedInPascalCase s) {type : String} :
    s.checkReturn type = [] ↔ s.ReturnOk type :=
  ⟨returnOk_of_checkReturn, checkReturn_of_returnOk hs⟩

theorem checkMethod_eq_nil_iff (hs : NamedInPascalCase s) {m : Method} :
    s.checkMethod m = [] ↔ s.MethodOk m := by
  rw [Scope.checkMethod, List.append_eq_nil_iff, List.append_eq_nil_iff, eachFrom_eq_nil_iff,
    List.flatMap_eq_nil_iff, List.flatMap_eq_nil_iff]
  simp only [Option.mem_toList, checkParameter_eq_nil_iff hs, checkReturn_eq_nil_iff hs,
    checkError_eq_nil_iff]
  exact ⟨fun ⟨⟨hp, hr⟩, he⟩ => ⟨hp, hr, he⟩, fun h => ⟨⟨h.parameters, h.returns⟩, h.error⟩⟩

end Types

/-! ### Constructors -/

section Constructors

variable {s : Scope}

theorem isConstructorName_iff {name : String} :
    Naming.isConstructorName name = true ↔
      name = "create" ∨ ∃ rest, rest ≠ "" ∧ name = "create_" ++ rest := by
  rw [Naming.isConstructorName, Bool.or_eq_true, beq_iff_eq]
  refine or_congr_right ?_
  cases h : Text.dropPrefix? "create_" name with
  -- Without the prefix no rest exists; with it the rest is the one that was cut off.
  | none =>
    refine ⟨nofun, ?_⟩
    rintro ⟨rest, -, hrest⟩
    rw [Text.dropPrefix?_eq_some_iff.mpr hrest] at h
    cases h
  | some rest =>
    simp only [bne_iff_ne]
    rw [Text.dropPrefix?_eq_some_iff] at h
    constructor
    · exact fun hne => ⟨rest, hne, h⟩
    · rintro ⟨rest', hne, hrest'⟩
      have heq : some rest' = some rest := by
        rw [← Text.dropPrefix?_eq_some_iff.mpr hrest', Text.dropPrefix?_eq_some_iff.mpr h]
      exact Option.some.inj heq ▸ hne

/-- A method returns a handle in the sense of the program exactly when its result is
written as one and has the name of one. -/
theorem returnedHandle?_eq_some_iff {m : Method} {h : String} :
    m.returnedHandle? = some h ↔ Makes m h ∧ isPascalIdentifier h = true := by
  rw [Method.returnedHandle?, Method.returnType?]
  cases hr : m.returns with
  | none => simp [Makes, hr]
  | some r =>
    simp only [Option.map_some, Option.bind_eq_bind, Option.bind_some, Option.bind_eq_some_iff]
    constructor
    · rintro ⟨t, ht, hh⟩
      cases t with
      -- Only the text of a handle names one.
      | handle name =>
        obtain rfl : name = h := Option.some.inj hh
        obtain ⟨htext, hwell⟩ := TypeRef.text_of_ofString? ht
        exact ⟨⟨r, hr, htext⟩, hwell⟩
      | string | buffer _ | primitive _ | qualified _ => cases hh
    · rintro ⟨⟨r', hr', htext⟩, hpascal⟩
      obtain rfl : r = r' := Option.some.inj (hr.symm.trans hr')
      exact ⟨.handle h, TypeRef.ofString?_eq_some_iff.mpr ⟨htext, hpascal⟩, rfl⟩

/-- A method makes one handle only. -/
theorem Makes.unique {m : Method} {h h' : String} (hm : Makes m h) (hm' : Makes m h') :
    h = h' := by
  obtain ⟨r, hr, ht⟩ := hm
  obtain ⟨r', hr', ht'⟩ := hm'
  obtain rfl : r = r' := Option.some.inj (hr.symm.trans hr')
  exact Option.some.inj
    ((Text.dropPrefix?_eq_some_iff.mpr ht).symm.trans (Text.dropPrefix?_eq_some_iff.mpr ht'))

/-- A handle that a method makes is declared, and so it is named like one. -/
theorem returnedHandle?_of_makes (hs : NamedInPascalCase s) {m : Method} {h : String}
    (hok : s.MethodOk m) (hm : Makes m h) : m.returnedHandle? = some h := by
  refine returnedHandle?_eq_some_iff.mpr ⟨hm, ?_⟩
  obtain ⟨r, hr, htype⟩ := hm
  have hret := checkReturn_of_returnOk hs (hok.returns r hr)
  -- were the name not in Pascal case, the text would have no form
  by_contra hpascal
  have hnone : TypeRef.ofString? r.type = none := by
    rw [htype, TypeRef.ofString?_handle, if_neg hpascal]
  rw [Scope.checkReturn] at hret
  split at hret
  · cases hret
  · simp [hnone] at hret

theorem checkConstructed_eq_nil_iff {interface : String} {before : List Method} {m : Method} :
    checkConstructed interface before m = [] ↔
      ∃ h, m.returnedHandle? = some h ∧ ∀ first, firstHandle? before = some first → first = h := by
  rw [checkConstructed, Method.returnedHandle?, Method.returnType?]
  cases hr : m.returns with
  | none => simp
  | some r =>
    simp only [Option.map_some, Option.bind_eq_bind, Option.bind_some]
    cases ht : TypeRef.ofString? r.type with
    | none => simp
    | some t =>
      cases t with
      -- The finding looks at a handle only, and the first one before decides.
      | handle name =>
        cases hf : firstHandle? before with
        | none => simp [TypeRef.handleName?]
        | some first => simp [TypeRef.handleName?]
      | string | buffer _ | primitive _ | qualified _ => simp [TypeRef.handleName?]

theorem checkNoHandle_eq_nil_iff {p : Parameter} :
    checkNoHandle p = [] ↔ ∀ h, TypeRef.ofString? p.type ≠ some (.handle h) := by
  rw [checkNoHandle, findingIf_eq_nil_iff, Option.isSome_eq_false_iff, Option.isNone_iff_eq_none,
    Parameter.typeRef?]
  cases ht : TypeRef.ofString? p.type with
  | none => simp
  | some t => cases t <;> simp [TypeRef.handleName?]

/-- **One constructor.** Given the constructors before it, nothing is found exactly when
it obeys its rules and makes the handle that the first of them makes. -/
theorem checkConstructor_eq_nil_iff (hs : NamedInPascalCase s) {interface : String}
    {before : List Method} {m : Method} :
    checkConstructor s interface before m = [] ↔
      s.ConstructorOk m ∧
        ∀ first h, firstHandle? before = some first → Makes m h → first = h := by
  simp only [checkConstructor, List.append_eq_nil_iff, findingIf_eq_nil_iff, eachFrom_eq_nil_iff,
    checkMethod_eq_nil_iff hs, checkConstructed_eq_nil_iff, checkNoHandle_eq_nil_iff,
    Bool.not_eq_false', isConstructorName_iff, Option.isNone_eq_false_iff,
    Option.isSome_iff_exists]
  constructor
  · rintro ⟨⟨⟨⟨hname, herror⟩, h, hret, hfirst⟩, hno⟩, hok⟩
    have hmakes := (returnedHandle?_eq_some_iff.mp hret).1
    refine ⟨⟨hok, hname, herror, ⟨h, hmakes⟩, ?_⟩, ?_⟩
    · -- a handle among the parameters would be declared, and so it would have been found
      intro p hp name htype
      have hpar := checkParameter_of_parameterOk hs (hok.parameters p hp)
      have hform := TypeRef.ofString?_handle name
      rw [← htype] at hform
      by_cases hpascal : isPascalIdentifier name = true
      · rw [if_pos hpascal] at hform
        exact hno p hp name hform
      · have hl : p.type.toList = 'h' :: ("andle:" ++ name).toList := by
          rw [htype]
          simp [String.toList_append]
        rw [if_neg hpascal] at hform
        rw [Scope.checkParameter, TypeRef.bufferElement?_eq_none hl (by decide)] at hpar
        simp [hform] at hpar
    · intro first h' hf hm
      rw [hfirst first hf]
      exact hmakes.unique hm
  · rintro ⟨hok, hfirst⟩
    -- conversely, each check asks for one of the rules
    obtain ⟨h, hmakes⟩ := hok.makes
    refine ⟨⟨⟨⟨hok.named, hok.canFail⟩, h, ?_, fun first hf => hfirst first h hf hmakes⟩, ?_⟩,
      hok.toMethodOk⟩
    · exact returnedHandle?_of_makes hs hok.toMethodOk hmakes
    · intro p hp name hform
      exact hok.takesNoHandle p hp name (TypeRef.text_of_ofString? hform).1

/-- **All constructors of an interface.** Nothing is found exactly when each obeys its
rules and all make the same handle. -/
theorem checkConstructors_eq_nil_iff (hs : NamedInPascalCase s) {interface list : String}
    {cs : List Method} :
    eachAfter list (checkConstructor s interface) 0 [] cs = [] ↔
      (∀ c ∈ cs, s.ConstructorOk c) ∧
        ∀ c ∈ cs, ∀ c' ∈ cs, ∀ h h', Makes c h → Makes c' h' → h = h' := by
  simp only [eachAfter_eq_nil_iff, List.nil_append, checkConstructor_eq_nil_iff hs]
  constructor
  · intro hcs
    have hok : ∀ c ∈ cs, s.ConstructorOk c :=
      forall_split_iff.mp fun pre x post hsplit => (hcs pre x post hsplit).1
    refine ⟨hok, ?_⟩
    cases cs with
    | nil => exact fun c hc => absurd hc List.not_mem_nil
    | cons c₀ rest =>
      -- every constructor makes the handle of the first one
      obtain ⟨h₀, hm₀⟩ := (hok c₀ List.mem_cons_self).makes
      have hret₀ : c₀.returnedHandle? = some h₀ :=
        returnedHandle?_of_makes hs (hok c₀ List.mem_cons_self).toMethodOk hm₀
      have hall : ∀ c ∈ c₀ :: rest, ∀ h, Makes c h → h₀ = h := by
        refine forall_split_iff.mp fun pre c post hsplit h hm => ?_
        cases pre with
        | nil =>
          obtain ⟨rfl, -⟩ := List.cons.inj hsplit
          exact hm₀.unique hm
        | cons d pre =>
          obtain ⟨rfl, -⟩ := List.cons.inj hsplit
          refine (hcs (c₀ :: pre) c post hsplit).2 h₀ h ?_ hm
          rw [firstHandle?, List.findSome?_cons, hret₀]
      intro c hc c' hc' h h' hm hm'
      exact (hall c hc h hm).symm.trans (hall c' hc' h' hm')
  · rintro ⟨hok, hone⟩ pre c post rfl
    have hc : c ∈ pre ++ c :: post := by simp
    refine ⟨hok c hc, fun first h hf hm => ?_⟩
    obtain ⟨c', hc', hret⟩ := List.exists_of_findSome?_eq_some hf
    have hm' := (returnedHandle?_eq_some_iff.mp hret).1
    exact hone c' (by simp [hc']) c hc first h hm' hm

/-- Among constructors that obey their rules, the first one tells the handle that the
interface constructs. -/
theorem constructedHandle?_eq_some_iff (hs : NamedInPascalCase s) {i : Interface} {h : String}
    (hok : ∀ c ∈ i.constructors, s.ConstructorOk c)
    (hone : ∀ c ∈ i.constructors, ∀ c' ∈ i.constructors, ∀ h h',
      Makes c h → Makes c' h' → h = h') :
    i.constructedHandle? = some h ↔ ∃ c ∈ i.constructors, Makes c h := by
  rw [Interface.constructedHandle?]
  cases hcs : i.constructors with
  | nil => simp
  | cons c₀ rest =>
    rw [hcs] at hok hone
    have hc₀ : c₀ ∈ c₀ :: rest := List.mem_cons_self
    simp only [List.head?_cons, Option.bind_eq_bind, Option.bind_some]
    constructor
    · intro hret
      exact ⟨c₀, hc₀, (returnedHandle?_eq_some_iff.mp hret).1⟩
    -- All constructors make the same handle, so the first one makes it too.
    · rintro ⟨c, hc, hm⟩
      obtain ⟨h₀, hm₀⟩ := (hok c₀ hc₀).makes
      obtain rfl : h₀ = h := hone c₀ hc₀ c hc h₀ h hm₀ hm
      exact returnedHandle?_of_makes hs (hok c₀ hc₀).toMethodOk hm₀

end Constructors

/-! ### Names -/

theorem isTaken_eq_false_iff {ms : List Method} {name : String} :
    isTaken ms name = false ↔ name ∉ ms.map (·.name) := by
  simp [isTaken]

theorem checkConstructorNames_eq_nil_iff {interface list : String} {cs : List Method} :
    eachAfter list (checkConstructorName interface) 0 [] cs = [] ↔
      (cs.map (·.name)).Nodup := by
  simp only [eachAfter_eq_nil_iff, List.nil_append, checkConstructorName, findingIf_eq_nil_iff,
    isTaken_eq_false_iff]
  exact nodup_map_iff_split.symm

theorem checkMethodName_eq_nil_iff {i : Interface} {before : List Method} {m : Method} :
    checkMethodName i before m = [] ↔
      m.name ∉ before.map (·.name) ∧ (∀ c ∈ i.constructors, m.name ≠ c.name) ∧
        ∀ h, i.constructedHandle? = some h → m.name ≠ Naming.destructorName h := by
  rw [checkMethodName]
  cases ht : isTaken (i.constructors ++ before) m.name with
  | true =>
    -- the name is that of a constructor or of a method before
    simp only [if_true]
    refine ⟨nofun, ?_⟩
    rintro ⟨hbefore, hconstructors, -⟩
    rw [← Bool.not_eq_false, isTaken_eq_false_iff, not_not, List.map_append,
      List.mem_append] at ht
    rcases ht with ht | ht
    · obtain ⟨c, hc, hname⟩ := List.mem_map.mp ht
      exact absurd hname.symm (hconstructors c hc)
    · exact absurd ht hbefore
  | false =>
    -- the name is new, so only that of the destructor is left to compare with
    rw [isTaken_eq_false_iff, List.map_append, List.mem_append, not_or] at ht
    have hconstructors : ∀ c ∈ i.constructors, m.name ≠ c.name :=
      fun c hc hname => ht.1 (List.mem_map.mpr ⟨c, hc, hname.symm⟩)
    rw [if_neg Bool.false_ne_true, findingIf_eq_nil_iff, Interface.destructor?]
    cases hh : i.constructedHandle? with
    | none => simpa using ⟨fun x hx hn => ht.2 (List.mem_map.mpr ⟨x, hx, hn⟩), hconstructors⟩
    | some h =>
      simp only [Option.map_some, Option.any_some, Interface.destructorOf, decide_eq_false_iff_not]
      constructor
      · intro hne
        refine ⟨ht.2, hconstructors, ?_⟩
        intro h' hh' hname
        obtain rfl : h = h' := Option.some.inj hh'
        exact hne hname.symm
      · rintro ⟨-, -, hne⟩ hname
        exact hne h rfl hname.symm

theorem checkMethodNames_eq_nil_iff {i : Interface} {list : String} :
    eachAfter list (checkMethodName i) 0 [] i.methods = [] ↔
      (i.methods.map (·.name)).Nodup ∧
        (∀ m ∈ i.methods, ∀ c ∈ i.constructors, m.name ≠ c.name) ∧
        ∀ h, i.constructedHandle? = some h →
          ∀ m ∈ i.methods, m.name ≠ Naming.destructorName h := by
  simp only [eachAfter_eq_nil_iff, List.nil_append, checkMethodName_eq_nil_iff]
  rw [nodup_map_iff_split]
  constructor
  -- Each of the three demands is read off every cut of the list.
  · intro hms
    refine ⟨fun pre m post hsplit => (hms pre m post hsplit).1, ?_, fun h hh => ?_⟩
    · exact forall_split_iff.mp fun pre m post hsplit => (hms pre m post hsplit).2.1
    · exact forall_split_iff.mp fun pre m post hsplit => (hms pre m post hsplit).2.2 h hh
  · rintro ⟨hnames, hapart, hdestructor⟩ pre m post hsplit
    have hm : m ∈ i.methods := by rw [hsplit]; simp
    exact ⟨hnames pre m post hsplit, hapart m hm, fun h hh => hdestructor h hh m hm⟩

/-! ### Interfaces, handles, descriptions -/

/-- **One interface.** Given the interfaces before it, nothing is found exactly when its
name is new and it obeys its rules. -/
theorem checkInterface_eq_nil_iff {s : Scope} (hs : NamedInPascalCase s)
    {before : List Interface} {i : Interface} :
    checkInterface s before i = [] ↔ i.name ∉ before.map (·.name) ∧ s.InterfaceOk i := by
  simp only [checkInterface, List.append_eq_nil_iff, findingIf_eq_nil_iff,
    checkConstructorNames_eq_nil_iff, checkMethodNames_eq_nil_iff,
    checkConstructors_eq_nil_iff hs, eachFrom_eq_nil_iff, checkMethod_eq_nil_iff hs,
    Bool.and_eq_false_iff, List.isEmpty_eq_false_iff, List.contains_eq_mem,
    decide_eq_false_iff_not]
  constructor
  · rintro ⟨⟨⟨⟨⟨hname, hsome⟩, hcnames⟩, hmnames, hapart, hdestructor⟩, hcs, hone⟩, hms⟩
    refine ⟨hname, hsome, hcnames, hmnames, hapart, hcs, hone, ?_, hms⟩
    -- the destructor is named after the handle that any constructor makes
    intro c hc h hm
    exact hdestructor h ((constructedHandle?_eq_some_iff hs hcs hone).mpr ⟨c, hc, hm⟩)
  · rintro ⟨hname, hok⟩
    refine ⟨⟨⟨⟨⟨hname, hok.nonempty⟩, hok.constructorNames⟩, hok.methodNames, hok.apart, ?_⟩,
      hok.constructors, hok.oneHandle⟩, hok.methods⟩
    intro h hh
    obtain ⟨c, hc, hm⟩ :=
      (constructedHandle?_eq_some_iff hs hok.constructors hok.oneHandle).mp hh
    exact hok.destructor c hc h hm

theorem checkInterfaces_eq_nil_iff {s : Scope} (hs : NamedInPascalCase s) {list : String}
    {is : List Interface} :
    eachAfter list (checkInterface s) 0 [] is = [] ↔
      (is.map (·.name)).Nodup ∧ ∀ i ∈ is, s.InterfaceOk i := by
  simp only [eachAfter_eq_nil_iff, List.nil_append, checkInterface_eq_nil_iff hs]
  rw [nodup_map_iff_split, ← forall_split_iff]
  simp only [imp_and, forall_and]

theorem checkHandleNames_eq_nil_iff {list : String} {hs : List Handle} :
    eachAfter list checkHandleName 0 [] hs = [] ↔
      (∀ h ∈ hs, isPascalIdentifier h.name = true) ∧ (hs.map (·.name)).Nodup := by
  simp only [eachAfter_eq_nil_iff, List.nil_append, checkHandleName, List.append_eq_nil_iff,
    findingIf_eq_nil_iff, Bool.not_eq_false', List.contains_eq_mem, decide_eq_false_iff_not]
  rw [nodup_map_iff_split, ← forall_split_iff]
  simp only [imp_and, forall_and]

/-- The scope of a description whose handles are named in Pascal case. -/
theorem namedInPascalCase_of_handles {a : Api} (types : Option Schema)
    (h : ∀ h ∈ a.handles, isPascalIdentifier h.name = true) :
    NamedInPascalCase ⟨a.handles.map (·.name), types⟩ := by
  intro name hname
  obtain ⟨handle, hh, rfl⟩ := List.mem_map.mp hname
  exact h handle hh

/-- No rule is missed: without findings every rule holds. -/
theorem conforms_of_validate {a : Api} {types : Option Schema} (h : a.validate types = []) :
    Conforms a types := by
  rw [Api.validate, List.append_eq_nil_iff, checkHandleNames_eq_nil_iff] at h
  obtain ⟨⟨hpascal, hnodup⟩, his⟩ := h
  rw [checkInterfaces_eq_nil_iff (namedInPascalCase_of_handles types hpascal)] at his
  exact ⟨hpascal, hnodup, his.1, his.2⟩

/-- Nothing else is refused: where every rule holds there are no findings. -/
theorem validate_of_conforms {a : Api} {types : Option Schema} (h : Conforms a types) :
    a.validate types = [] := by
  rw [Api.validate, List.append_eq_nil_iff, checkHandleNames_eq_nil_iff,
    checkInterfaces_eq_nil_iff (namedInPascalCase_of_handles types h.handlesPascal)]
  exact ⟨⟨h.handlesPascal, h.handleNames⟩, h.interfaceNames, h.interfaces⟩

/-- **Validation decides the rules.** A description has no findings against a schema
exactly when it conforms to it. -/
theorem validate_eq_nil_iff_conforms (a : Api) (types : Schema) :
    a.validate (some types) = [] ↔ Conforms a (some types) :=
  ⟨conforms_of_validate, validate_of_conforms⟩

end Bindery.Validate
