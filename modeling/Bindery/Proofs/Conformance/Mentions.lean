import Bindery.Emit.Context
import Bindery.Proofs.TypeRef
import Bindery.Validate.Basic

/-!
# What a schema adds to validation

A description is validated with a schema or without one. Only two rules look at the schema: a type
that a parameter or a result names must be there and must be no union, and an error type must be
an enumeration. So there is a list that depends on the description alone, of all the places where
it names a schema type (`Api.mentions`), and the schema has one thing to say about each of them
(`Mention.problem?`).

Validation walks over the description once, and its findings about names, constructors, handles
and transfers stand between those about the schema. What a schema adds to one part of this walk is
`Validate.Adds`: with the findings about schema types taken out, the rest is what is found without
a schema, and what is taken out are the complaints about the places of that part, in order. This
is kept when findings are put together and when they are seen from further out, and so it goes up
from one type to the whole description (`adds_method`, `adds_interface`).

* `schema_only_adds_findings` — a schema takes no finding away, changes none and moves none, and
  it adds its complaints about the schema types that the description names, and nothing else.
-/

namespace Bindery

open Validate

/-! ### Mentions -/

/-- What a schema type is named for. -/
inductive Mention.Role where
  /-- It is the type of a parameter or of a result. -/
  | value
  /-- It is the error type of an operation. -/
  | error
deriving DecidableEq

/-- **A place of a description that names a schema type.** -/
structure Mention where
  path : String
  name : String
  role : Mention.Role
deriving DecidableEq

namespace Mention

/-- The place seen from further out. -/
def below (front : String) (u : Mention) : Mention := { u with path := front ++ u.path }

/-- **What a schema has to say against a mention.** A value may be of any type of the schema but a
union, and an error is an enumeration. -/
def problem? (types : Schema) (u : Mention) : Option Problem :=
  match types.get? u.name, u.role with
  | none, .value => some (.missingType u.name)
  | none, .error => some (.missingErrorType u.name)
  | some d, .value => if d.kind = .union then some (.unionType u.name) else none
  | some d, .error => if d.kind = .enum then none else some (.errorNotEnum u.name d.kind)

/-- The problem at its place. -/
def finding? (types : Schema) (u : Mention) : Option Finding :=
  (u.problem? types).map fun problem => ⟨u.path, problem⟩

/-- The mentions in the members of a list, numbered from a start and seen from outside. -/
def inEach {α : Type} (list : String) (f : α → List Mention) (start : Nat) (xs : List α) :
    List Mention :=
  (xs.zipIdx start).flatMap fun (x, i) => (f x).map (below (atIndex list i))

/-- The schema type that a text names, at the place of the text. -/
def ofType (path type : String) : List Mention :=
  (Context.qualified? type).toList.map fun name => ⟨path, name, .value⟩

end Mention

def Parameter.mentions (p : Parameter) : List Mention := Mention.ofType ".type" p.type

def Method.mentions (m : Method) : List Mention :=
  Mention.inEach ".parameters" Parameter.mentions 0 m.parameters
    ++ (m.returns.toList.flatMap fun r => Mention.ofType ".returns.type" r.type)
    ++ m.error.toList.map fun e => ⟨".error", e, .error⟩

def Interface.mentions (i : Interface) : List Mention :=
  Mention.inEach ".constructors" Method.mentions 0 i.constructors
    ++ Mention.inEach ".methods" Method.mentions 0 i.methods

/-- **All places where a description names a schema type**, in the order of the description. -/
def Api.mentions (a : Api) : List Mention :=
  Mention.inEach "interfaces" Interface.mentions 0 a.interfaces

namespace Validate

/-- The problems that cannot be found without a schema. -/
def Problem.isOfSchema : Problem → Bool
  | missingType _ | unionType _ | missingErrorType _ | errorNotEnum _ _ => true
  | _ => false

/-- The findings that cannot be made without a schema. -/
def Finding.isOfSchema (f : Finding) : Bool := f.problem.isOfSchema

/-! ### What is added -/

/-- **What a schema adds to a part of the findings**: between those that are there without it
stand the complaints about the mentions in that part. -/
structure Adds (types : Schema) (mentions : List Mention) (bare full : List Finding) : Prop where
  stays : full.filter (fun f => !f.isOfSchema) = bare
  added : full.filter Finding.isOfSchema = mentions.filterMap (Mention.finding? types)

section Adds

variable {types : Schema} {us us' : List Mention} {bare bare' full full' : List Finding}

/-- A schema adds nothing to these findings. -/
abbrev Unaffected (types : Schema) (fs : List Finding) : Prop := Adds types [] fs fs

theorem adds_none : Unaffected types [] := ⟨rfl, rfl⟩

/-- A finding of any other rule is made with a schema and without. -/
theorem unaffected_singleton {f : Finding} (h : f.isOfSchema = false) : Unaffected types [f] where
  stays := by rw [List.filter_cons, h]; rfl
  added := by rw [List.filter_cons, h]; rfl

theorem unaffected_findingIf {problem : Problem} (h : problem.isOfSchema = false) (bad : Bool)
    (path : String) : Unaffected types (findingIf bad path problem) := by
  cases bad with
  | false => exact adds_none
  | true => exact unaffected_singleton h

/-- Whatever a schema has to say against a mention cannot be said without it. -/
theorem isOfSchema_of_finding? {u : Mention} {f : Finding} (h : u.finding? types = some f) :
    f.isOfSchema = true := by
  obtain ⟨problem, hproblem, rfl⟩ := Option.map_eq_some_iff.mp h
  show problem.isOfSchema = true
  rw [Mention.problem?] at hproblem
  -- By the way in which the type is found to be wrong; each problem that is left speaks of the
  -- schema.
  split at hproblem
  next => cases hproblem; rfl
  next => cases hproblem; rfl
  next =>
    split at hproblem
    next => cases hproblem; rfl
    next => cases hproblem
  next =>
    split at hproblem
    next => cases hproblem
    next => cases hproblem; rfl

/-- What a schema has to say against one mention is all that it adds there. -/
theorem adds_complaint (u : Mention) : Adds types [u] [] (u.finding? types).toList := by
  cases hu : u.finding? types with
  | none => exact ⟨rfl, by simp [hu]⟩
  | some f =>
    have hf := isOfSchema_of_finding? hu
    exact ⟨by simp [hf], by simp [hf, hu]⟩

theorem Adds.append (h : Adds types us bare full) (h' : Adds types us' bare' full') :
    Adds types (us ++ us') (bare ++ bare') (full ++ full') where
  stays := by rw [List.filter_append, h.stays, h'.stays]
  added := by rw [List.filter_append, h.added, h'.added, List.filterMap_append]

theorem finding?_below (front : String) (u : Mention) :
    (u.below front).finding? types = (u.finding? types).map (Finding.below front) := by
  have hproblem : (u.below front).problem? types = u.problem? types := rfl
  rw [Mention.finding?, Mention.finding?, hproblem, Option.map_map]
  rfl

theorem Adds.below (h : Adds types us bare full) (front : String) :
    Adds types (us.map (Mention.below front)) (bare.map (Finding.below front))
      (full.map (Finding.below front)) where
  stays := by
    rw [List.filter_map, ← h.stays]
    rfl
  added := by
    calc (full.map (Finding.below front)).filter Finding.isOfSchema
        = (full.filter Finding.isOfSchema).map (Finding.below front) := List.filter_map
      _ = (us.filterMap (Mention.finding? types)).map (Finding.below front) := by rw [h.added]
      _ = us.filterMap (fun u => (u.finding? types).map (Finding.below front)) :=
          List.map_filterMap
      _ = us.filterMap (fun u => (u.below front).finding? types) := by
          simp only [finding?_below]
      _ = (us.map (Mention.below front)).filterMap (Mention.finding? types) := by
          rw [List.filterMap_map]
          rfl

variable {α : Type} {list : String} {mentions : α → List Mention}

/-- **From the members of a list to the list.** A member may be seen after those before it, but what
it mentions does not depend on them. -/
theorem adds_eachAfter {f g : List α → α → List Finding}
    (h : ∀ before x, Adds types (mentions x) (f before x) (g before x)) (start : Nat)
    (before xs : List α) :
    Adds types (Mention.inEach list mentions start xs) (eachAfter list f start before xs)
      (eachAfter list g start before xs) := by
  induction xs generalizing start before with
  | nil => exact adds_none
  | cons x xs ih => exact ((h before x).below _).append (ih (start + 1) (before ++ [x]))

/-- Looking at each member for itself is looking at it after the others and not minding them. -/
theorem eachFrom_eq_eachAfter (f : α → List Finding) (start : Nat) (before xs : List α) :
    eachFrom list f start xs = eachAfter list (fun _ => f) start before xs := by
  induction xs generalizing start before with
  | nil => rfl
  | cons x xs ih => rw [eachFrom, eachAfter, ih (start + 1) (before ++ [x])]

theorem adds_eachFrom {f g : α → List Finding} (h : ∀ x, Adds types (mentions x) (f x) (g x))
    (start : Nat) (xs : List α) :
    Adds types (Mention.inEach list mentions start xs) (eachFrom list f start xs)
      (eachFrom list g start xs) := by
  rw [eachFrom_eq_eachAfter f start [] xs, eachFrom_eq_eachAfter g start [] xs]
  exact adds_eachAfter (fun _ => h) start [] xs

theorem inEach_nothing (start : Nat) (xs : List α) :
    Mention.inEach list (fun _ => []) start xs = [] := by
  simp [Mention.inEach]

/-- Rules that do not look at the schema, for all members of a list. -/
theorem unaffected_eachAfter {f : List α → α → List Finding}
    (h : ∀ before x, Unaffected types (f before x)) (start : Nat) (before xs : List α) :
    Unaffected types (eachAfter list f start before xs) := by
  have hlist : Adds types (Mention.inEach list (fun _ => []) start xs) _ _ :=
    adds_eachAfter h start before xs
  rwa [inEach_nothing] at hlist

theorem unaffected_eachFrom {f : α → List Finding} (h : ∀ x, Unaffected types (f x)) (start : Nat)
    (xs : List α) : Unaffected types (eachFrom list f start xs) := by
  rw [eachFrom_eq_eachAfter f start [] xs]
  exact unaffected_eachAfter (fun _ => h) start [] xs

end Adds

/-! ### Types -/

section Types

variable {types : Schema} {handles : List String}

/-- What a description is checked against once a schema is known. -/
def known (handles : List String) (types : Schema) : Scope := ⟨handles, some types⟩

/-- What a description is checked against without a schema. -/
def blind (handles : List String) : Scope := ⟨handles, none⟩

theorem qualified?_eq_some_iff {type name : String} :
    Context.qualified? type = some name ↔ TypeRef.ofString? type = some (.qualified name) := by
  rw [Context.qualified?, Option.bind_eq_bind, Option.bind_eq_some_iff]
  constructor
  · rintro ⟨t, ht, hname⟩
    cases t with
    | qualified n =>
      obtain rfl : n = name := Option.some.inj hname
      exact ht
    | string | buffer _ | handle _ | primitive _ => cases hname
  · intro h
    exact ⟨.qualified name, h, rfl⟩

theorem ofType_of_qualified {type name : String} (path : String)
    (h : TypeRef.ofString? type = some (.qualified name)) :
    Mention.ofType path type = [⟨path, name, .value⟩] := by
  rw [Mention.ofType, qualified?_eq_some_iff.mpr h]
  rfl

theorem ofType_eq_nil {type : String} (path : String)
    (h : ∀ name, TypeRef.ofString? type ≠ some (.qualified name)) :
    Mention.ofType path type = [] := by
  rw [Mention.ofType]
  cases hname : Context.qualified? type with
  | none => rfl
  | some name => exact absurd (qualified?_eq_some_iff.mp hname) (h name)

/-- **A type that is named for a value.** Without a schema there is nothing to say about it. -/
theorem adds_checkQualified (path name : String) :
    Adds types [⟨path, name, .value⟩] ((blind handles).checkQualified path name)
      ((known handles types).checkQualified path name) := by
  have hknown : (known handles types).checkQualified path name =
      ((⟨path, name, .value⟩ : Mention).finding? types).toList := by
    simp only [Scope.checkQualified, known, Mention.finding?, Mention.problem?]
    cases types.get? name with
    | none => rfl
    | some d => by_cases hunion : d.kind = .union <;> simp [hunion, findingIf]
  rw [hknown]
  exact adds_complaint _

theorem adds_checkError (path name : String) :
    Adds types [⟨path, name, .error⟩] ((blind handles).checkError path name)
      ((known handles types).checkError path name) := by
  have hknown : (known handles types).checkError path name =
      ((⟨path, name, .error⟩ : Mention).finding? types).toList := by
    simp only [Scope.checkError, known, Mention.finding?, Mention.problem?]
    cases types.get? name with
    | none => rfl
    | some d => by_cases henum : d.kind = .enum <;> simp [henum, findingIf]
  rw [hknown]
  exact adds_complaint _

theorem unaffected_checkHandle (path name : String) :
    Adds types [] ((blind handles).checkHandle path name)
      ((known handles types).checkHandle path name) :=
  unaffected_findingIf rfl _ path

/-- **A parameter.** Only a type that has the form of a schema name is looked for there. -/
theorem adds_checkParameter (p : Parameter) :
    Adds types p.mentions ((blind handles).checkParameter p)
      ((known handles types).checkParameter p) := by
  rw [Parameter.mentions, Scope.checkParameter, Scope.checkParameter]
  cases hbuffer : TypeRef.bufferElement? p.type with
  | some element =>
    -- what stands in the brackets of a buffer is no name
    have hother : ∀ name, TypeRef.ofString? p.type ≠ some (.qualified name) := by
      intro name hname
      rw [TypeRef.bufferElement?_eq_none_of_ofString? hname nofun] at hbuffer
      cases hbuffer
    rw [ofType_eq_nil _ hother]
    exact (unaffected_findingIf rfl _ _).append (unaffected_findingIf rfl _ _)
  | none =>
    cases htype : TypeRef.ofString? p.type with
    | none =>
      rw [ofType_eq_nil _ (by simp [htype])]
      exact unaffected_singleton rfl
    | some t =>
      cases t with
      | qualified name =>
        rw [ofType_of_qualified _ htype]
        exact adds_checkQualified ".type" name
      | handle name =>
        rw [ofType_eq_nil _ (by simp [htype])]
        exact (unaffected_checkHandle _ _).append (unaffected_findingIf rfl _ _)
      | string =>
        rw [ofType_eq_nil _ (by simp [htype])]
        exact unaffected_findingIf rfl _ _
      | primitive _ =>
        rw [ofType_eq_nil _ (by simp [htype])]
        exact adds_none
      | buffer _ =>
        rw [ofType_eq_nil _ (by simp [htype])]
        exact unaffected_singleton rfl

/-- **A result.** -/
theorem adds_checkReturn (type : String) :
    Adds types (Mention.ofType ".returns.type" type) ((blind handles).checkReturn type)
      ((known handles types).checkReturn type) := by
  rw [Scope.checkReturn, Scope.checkReturn]
  by_cases hrefused : type = "string" ∨ (TypeRef.bufferElement? type).isSome
  · -- neither a text nor a buffer has the form of a schema name
    have hother : ∀ name, TypeRef.ofString? type ≠ some (.qualified name) := by
      intro name hname
      rcases hrefused with rfl | hbuffer
      · cases hname
      · rw [TypeRef.bufferElement?_eq_none_of_ofString? hname nofun] at hbuffer
        cases hbuffer
    rw [if_pos hrefused, if_pos hrefused, ofType_eq_nil _ hother]
    exact unaffected_singleton rfl
  · rw [if_neg hrefused, if_neg hrefused]
    cases htype : TypeRef.ofString? type with
    | none =>
      rw [ofType_eq_nil _ (by simp [htype])]
      exact unaffected_singleton rfl
    | some t =>
      -- only the name of a schema type is looked up, and mentioned
      cases t with
      | qualified name =>
        rw [ofType_of_qualified _ htype]
        exact adds_checkQualified ".returns.type" name
      | handle name =>
        rw [ofType_eq_nil _ (by simp [htype])]
        exact unaffected_checkHandle _ _
      | primitive _ =>
        rw [ofType_eq_nil _ (by simp [htype])]
        exact adds_none
      | string | buffer _ =>
        rw [ofType_eq_nil _ (by simp [htype])]
        exact unaffected_singleton rfl

/-- **A constructor or a method**, as far as the two are checked alike. -/
theorem adds_checkMethod (m : Method) :
    Adds types m.mentions ((blind handles).checkMethod m)
      ((known handles types).checkMethod m) := by
  -- The three parts of a method are walked one after another, and each adds its own mentions.
  have hreturns : Adds types
      (m.returns.toList.flatMap fun r => Mention.ofType ".returns.type" r.type)
      (m.returns.toList.flatMap fun r => (blind handles).checkReturn r.type)
      (m.returns.toList.flatMap fun r => (known handles types).checkReturn r.type) := by
    cases m.returns with
    | none => exact adds_none
    | some r =>
      simp only [Option.toList_some, List.flatMap_singleton]
      exact adds_checkReturn r.type
  have herror : Adds types (m.error.toList.map fun e => ⟨".error", e, .error⟩)
      (m.error.toList.flatMap fun e => (blind handles).checkError ".error" e)
      (m.error.toList.flatMap fun e => (known handles types).checkError ".error" e) := by
    cases m.error with
    | none => exact adds_none
    | some e =>
      simp only [Option.toList_some, List.flatMap_singleton]
      exact adds_checkError ".error" e
  exact ((adds_eachFrom adds_checkParameter 0 m.parameters).append hreturns).append herror

end Types

/-! ### Descriptions -/

section Descriptions

variable {types : Schema} {handles : List String}

theorem unaffected_checkConstructed (interface : String) (before : List Method) (m : Method) :
    Unaffected types (checkConstructed interface before m) := by
  rw [checkConstructed]
  split
  next => exact unaffected_singleton rfl
  next =>
    split
    next =>
      split
      next => exact unaffected_findingIf rfl _ _
      next => exact adds_none
    next => exact unaffected_singleton rfl

/-- **A constructor.** Its own rules come first. -/
theorem adds_checkConstructor (interface : String) (before : List Method) (m : Method) :
    Adds types m.mentions (checkConstructor (blind handles) interface before m)
      (checkConstructor (known handles types) interface before m) := by
  have hown : Unaffected types
      (findingIf (!Naming.isConstructorName m.name) ".name" (.constructorName m.name)
        ++ findingIf m.error.isNone ".error" .constructorWithoutError
        ++ checkConstructed interface before m
        ++ eachFrom ".parameters" checkNoHandle 0 m.parameters) :=
    (((unaffected_findingIf rfl _ _).append (unaffected_findingIf rfl _ _)).append
      (unaffected_checkConstructed interface before m)).append
      (unaffected_eachFrom (fun _ => unaffected_findingIf rfl _ _) 0 m.parameters)
  exact hown.append (adds_checkMethod m)

theorem unaffected_checkMethodName (i : Interface) (before : List Method) (m : Method) :
    Unaffected types (checkMethodName i before m) := by
  rw [checkMethodName]
  split
  next => exact unaffected_singleton rfl
  next => exact unaffected_findingIf rfl _ _

/-- **An interface.** The names of its operations are checked before the operations. -/
theorem adds_checkInterface (before : List Interface) (i : Interface) :
    Adds types i.mentions (checkInterface (blind handles) before i)
      (checkInterface (known handles types) before i) := by
  have hnames : Unaffected types
      (findingIf ((before.map (·.name)).contains i.name) ".name" (.duplicateInterface i.name)
        ++ findingIf (i.constructors.isEmpty && i.methods.isEmpty) "" (.emptyInterface i.name)
        ++ eachAfter ".constructors" (checkConstructorName i.name) 0 [] i.constructors
        ++ eachAfter ".methods" (checkMethodName i) 0 [] i.methods) :=
    (((unaffected_findingIf rfl _ _).append (unaffected_findingIf rfl _ _)).append
      (unaffected_eachAfter (fun _ _ => unaffected_findingIf rfl _ _) 0 [] i.constructors)).append
      (unaffected_eachAfter (unaffected_checkMethodName i) 0 [] i.methods)
  exact (hnames.append (adds_eachAfter (adds_checkConstructor i.name) 0 [] i.constructors)).append
    (adds_eachFrom adds_checkMethod 0 i.methods)

/-- **A description.** -/
theorem adds_validate (a : Api) (types : Schema) :
    Adds types a.mentions (a.validate none) (a.validate (some types)) := by
  have hhandles : Unaffected types (eachAfter "handles" checkHandleName 0 [] a.handles) :=
    unaffected_eachAfter
      (fun _ _ => (unaffected_findingIf rfl _ _).append (unaffected_findingIf rfl _ _)) 0 []
      a.handles
  exact hhandles.append (adds_eachAfter adds_checkInterface 0 [] a.interfaces)

end Descriptions

/-- **A schema only adds findings.** Whatever is found without a schema is found with it, at the
same places, in the same words and in the same order. With the findings that need a schema taken
out, nothing else is left; and those are the complaints about the schema types that the description
names: a type of a parameter or of a result that is missing or a union, and an error type that is
missing or no enumeration. -/
theorem schema_only_adds_findings (a : Api) (types : Schema) :
    ((a.validate none).map fun f => (f.path, f.message)).Sublist
        ((a.validate (some types)).map fun f => (f.path, f.message)) ∧
      (a.validate (some types)).filter (fun f => !f.isOfSchema) = a.validate none ∧
      (a.validate (some types)).filter Finding.isOfSchema =
        a.mentions.filterMap (Mention.finding? types) := by
  obtain ⟨hstays, hadded⟩ := adds_validate a types
  refine ⟨?_, hstays, hadded⟩
  apply List.Sublist.map
  rw [← hstays]
  exact List.filter_sublist

end Validate

end Bindery
