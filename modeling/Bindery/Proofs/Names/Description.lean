import Bindery.Proofs.Description
import Bindery.Proofs.Names.Basic
import Bindery.Proofs.Operations

/-!
# The names of a description

The shape of a description asks for names in snake case, by a pattern at every place where
a name may stand. Reading a description takes those same places apart, so what the shape
asks for holds of everything that is read:

* `Pattern.matchesList_snakePattern` — the pattern matches the names in snake case;
* `Shape.Ensures` — what the shape of a document gives to a reader of it, which is put
  together along the shape (`ensures_text`, `ensures_list`, `Fitting.required`);
* `snakeNamed_of_ofDocument` — every name of a description is in snake case;
* `plainNamed_of_mem_operations` — hence the names of all operations and their parameters are
  plain, those of destructors included.
-/

namespace Bindery

/-! ### Patterns of names -/

namespace Pattern

/-- Nothing matches any more. -/
theorem matchesList_never (cs : List Char) : never.matchesList cs = false := by
  unfold matchesList
  induction cs with
  | nil => rfl
  | cons c cs ih => exact ih

/-- Any number of characters of one class. -/
theorem matchesList_many_oneOf (ranges : List (Char × Char)) (cs : List Char) :
    (many (oneOf ranges)).matchesList cs = cs.all (inClass ranges) := by
  induction cs with
  | nil => rfl
  | cons c cs ih =>
    rw [List.all_cons, ← ih, matchesList, List.foldl_cons, derivative, derivative]
    -- what may follow is the same pattern again, or nothing at all
    cases inClass ranges c with
    | true => exact (Bool.true_and _).symm
    | false => exact matchesList_never cs

/-- **A character of one class, then any number of another.** -/
theorem matchesList_oneOf_many (first rest : List (Char × Char)) (c : Char) (cs : List Char) :
    (seq (oneOf first) (many (oneOf rest))).matchesList (c :: cs) =
      (inClass first c && cs.all (inClass rest)) := by
  rw [matchesList, List.foldl_cons, derivative, derivative, ← matchesList_many_oneOf]
  cases inClass first c with
  | true => exact (Bool.true_and _).symm
  | false => exact matchesList_never cs

theorem inClass_lowerRange (c : Char) : inClass [Shape.lowerRange] c = c.isLower := by
  simp [inClass, Shape.lowerRange, Char.isLower, Char.le_def]

theorem inClass_snakeTail :
    inClass [Shape.lowerRange, Shape.digitRange, ('_', '_')] = isSnakeTail := by
  funext c
  have hunder : (decide ('_' ≤ c) && decide (c ≤ '_')) = decide (c = '_') := by
    rw [← Bool.decide_and, decide_eq_decide, and_comm]
    exact antisymm_iff
  simp only [inClass, List.any_cons, List.any_nil, Bool.or_false, hunder, ← Bool.or_assoc]
  rfl

/-- **The pattern of names matches exactly the names in snake case.** -/
theorem matchesList_snakePattern (s : String) :
    Shape.snakePattern.matchesList s.toList = isSnakeIdentifier s := by
  unfold isSnakeIdentifier
  cases s.toList with
  | nil => rfl
  | cons c cs =>
    rw [Shape.snakePattern, matchesList_oneOf_many, inClass_lowerRange, inClass_snakeTail]

end Pattern

/-! ### What a shape gives to a reader -/

/-- A list is read member by member. -/
theorem mapM_eq_some_iff {α β : Type} {f : α → Option β} {xs : List α} {ys : List β} :
    xs.mapM f = some ys ↔ List.Forall₂ (fun x y => f x = some y) xs ys := by
  -- Along both lists, as a missing value anywhere makes the whole result missing.
  induction xs generalizing ys with
  | nil =>
    rw [List.mapM_nil, Option.pure_def, Option.some.injEq, List.forall₂_nil_left_iff, eq_comm]
  | cons x xs ih =>
    simp only [List.mapM_cons, Option.bind_eq_bind, Option.bind_eq_some_iff, ih, Option.pure_def,
      Option.some.injEq]
    constructor
    · rintro ⟨y, hy, ys, hys, rfl⟩
      exact .cons hy hys
    · intro h
      cases h with
      | cons hy hys => exact ⟨_, hy, _, hys, rfl⟩

/-- Every result of a list of readings is the result of one. -/
theorem exists_of_mem_mapM {α β : Type} {f : α → Option β} {xs : List α} {ys : List β}
    (h : xs.mapM f = some ys) {y : β} (hy : y ∈ ys) : ∃ x ∈ xs, f x = some y :=
  exists_mem_of_forall₂ (mapM_eq_some_iff.mp h).flip hy

namespace Shape

variable {α : Type} {read : Json → Option α} {P : α → Prop}

/-- **What is read from a document of this shape has a property.** -/
def Ensures (shape : Shape) (read : Json → Option α) (P : α → Prop) : Prop :=
  ∀ v a, shape.fits v = true → read v = some a → P a

theorem ensures_text (p : TextPattern) : (text (some p)).Ensures Json.text? (p.accepts · = true) := by
  intro v s hfits hread
  cases v with
  | str t =>
    obtain rfl : t = s := Option.some.inj hread
    simpa [fits] using hfits
  | null | bool _ | int _ | float _ | arr _ | obj _ => cases hread

theorem ensures_list {item : Shape} (h : item.Ensures read P) (nonempty distinct : Bool) :
    (list item nonempty distinct).Ensures (fun v => v.items? >>= (·.mapM read))
      (fun xs => ∀ x ∈ xs, P x) := by
  intro v xs hfits hread x hx
  cases v with
  | arr items =>
    obtain ⟨j, hj, hjx⟩ := exists_of_mem_mapM hread hx
    simp only [fits, Bool.and_eq_true, List.all_eq_true] at hfits
    exact h j x (hfits.1.1 j hj) hjx
  | null | bool _ | int _ | float _ | str _ | obj _ => cases hread

/-- The entries of an object fit the shapes under their keys. -/
def Fitting (properties : List (String × Shape)) (entries : List (String × Json)) : Prop :=
  ∀ key shape v, lookupEntry key properties = some shape → lookupEntry key entries = some v →
    shape.fits v = true

/-- The first shape under a key is the one that counts. -/
theorem fitsProperty_eq {properties : List (String × Shape)} {key : String} {shape : Shape}
    (hshape : lookupEntry key properties = some shape) (v : Json) :
    fitsProperty properties key v = shape.fits v := by
  induction properties with
  | nil => cases hshape
  | cons property rest ih =>
    obtain ⟨k, s⟩ := property
    rw [fitsProperty]
    by_cases hk : k = key
    · rw [if_pos hk]
      obtain rfl : s = shape := by simpa [lookupEntry, hk] using hshape
      rfl
    · rw [if_neg hk]
      exact ih (by simpa [lookupEntry, hk] using hshape)

/-- A group of values that has the shape of an object is one. -/
theorem fitting_of_group? {properties : List (String × Shape)} {required keys : List String}
    {v : Json} {e : List (String × Json)} (h : (object properties required).fits v = true)
    (he : v.group? keys = some e) : Fitting properties e := by
  intro key shape w hshape hw
  cases v with
  | obj entries =>
    obtain rfl : entries = e := Option.some.inj he
    simp only [fits, Bool.and_eq_true, List.all_eq_true] at h
    obtain ⟨entry, hentry, rfl⟩ := Option.map_eq_some_iff.mp hw
    -- a key may be repeated, and then every value under it fits
    obtain rfl : entry.1 = key := by simpa using List.find?_some hentry
    rw [← fitsProperty_eq hshape]
    exact h.1 entry (List.mem_of_find?_eq_some hentry)
  | null | bool _ | int _ | float _ | str _ | arr _ => simp [fits] at h

section Fitting

variable {properties : List (String × Shape)} {e : List (String × Json)} {key : String}
  {shape : Shape} (fitting : Fitting properties e)

include fitting

theorem Fitting.required (hread : shape.Ensures read P)
    (hshape : lookupEntry key properties = some shape) {a : α}
    (h : Json.required read key e = some a) : P a := by
  obtain ⟨v, hv, ha⟩ := Option.bind_eq_some_iff.mp h
  exact hread v a (fitting key shape v hshape hv) ha

theorem Fitting.listOf (hread : shape.Ensures read P) {nonempty distinct : Bool}
    (hshape : lookupEntry key properties = some (list shape nonempty distinct)) {xs : List α}
    (h : Json.listOf read key e = some xs) : ∀ x ∈ xs, P x := by
  unfold Json.listOf at h
  cases hv : lookupEntry key e with
  | none =>
    -- a list that is absent has no members
    rw [hv] at h
    obtain rfl : [] = xs := Option.some.inj h
    nofun
  | some v =>
    rw [hv] at h
    exact ensures_list hread nonempty distinct v xs (fitting key _ v hshape hv) h

end Fitting

theorem ensures_snakeName : snakeName.Ensures Json.text? (isSnakeIdentifier · = true) := by
  intro v s hfits hread
  rw [← Pattern.matchesList_snakePattern]
  exact ensures_text _ v s hfits hread

end Shape

/-! ### Reading names -/

/-- The names of an operation are in snake case. -/
structure Method.SnakeNamed (m : Method) : Prop where
  name : isSnakeIdentifier m.name = true
  parameters : ∀ p ∈ m.parameters, isSnakeIdentifier p.name = true

structure Interface.SnakeNamed (i : Interface) : Prop where
  name : isSnakeIdentifier i.name = true
  constructors : ∀ m ∈ i.constructors, m.SnakeNamed
  methods : ∀ m ∈ i.methods, m.SnakeNamed

/-- **Every name of the description is in snake case**, handles apart. -/
structure Api.SnakeNamed (a : Api) : Prop where
  name : isSnakeIdentifier a.metadata.name = true
  interfaces : ∀ i ∈ a.interfaces, i.SnakeNamed

namespace Shape

theorem ensures_parameter :
    parameter.Ensures Parameter.ofJson? (fun p => isSnakeIdentifier p.name = true) := by
  intro v p hfits hread
  simp only [Parameter.ofJson?, Option.bind_eq_bind, Option.bind_eq_some_iff, Option.pure_def,
    Option.some.injEq] at hread
  obtain ⟨e, he, name, hname, -, -, -, -, -, -, rfl⟩ := hread
  exact (fitting_of_group? hfits he).required ensures_snakeName rfl hname

theorem ensures_method : method.Ensures Method.ofJson? Method.SnakeNamed := by
  intro v m hfits hread
  simp only [Method.ofJson?, Option.bind_eq_bind, Option.bind_eq_some_iff, Option.pure_def,
    Option.some.injEq] at hread
  obtain ⟨e, he, name, hname, -, -, parameters, hparameters, -, -, -, -, rfl⟩ := hread
  have fitting := fitting_of_group? hfits he
  exact ⟨fitting.required ensures_snakeName rfl hname,
    fitting.listOf ensures_parameter rfl hparameters⟩

theorem ensures_interface : interface.Ensures Interface.ofJson? Interface.SnakeNamed := by
  intro v i hfits hread
  simp only [Interface.ofJson?, Option.bind_eq_bind, Option.bind_eq_some_iff, Option.pure_def,
    Option.some.injEq] at hread
  obtain ⟨e, he, name, hname, -, -, constructors, hconstructors, methods, hmethods, rfl⟩ := hread
  have fitting := fitting_of_group? hfits he
  exact ⟨fitting.required ensures_snakeName rfl hname,
    fitting.listOf ensures_method rfl hconstructors, fitting.listOf ensures_method rfl hmethods⟩

theorem ensures_metadata :
    metadata.Ensures Metadata.ofJson? (fun m => isSnakeIdentifier m.name = true) := by
  intro v m hfits hread
  simp only [Metadata.ofJson?, Option.bind_eq_bind, Option.bind_eq_some_iff, Option.pure_def,
    Option.some.injEq] at hread
  obtain ⟨e, he, name, hname, -, -, -, -, -, -, -, -, rfl⟩ := hread
  exact (fitting_of_group? hfits he).required ensures_snakeName rfl hname

theorem ensures_description : description.Ensures Api.ofJson? Api.SnakeNamed := by
  intro v a hfits hread
  simp only [Api.ofJson?, Option.bind_eq_bind, Option.bind_eq_some_iff, Option.pure_def,
    Option.some.injEq] at hread
  obtain ⟨e, he, metadata, hmetadata, -, -, -, -, interfaces, hinterfaces, rfl⟩ := hread
  have fitting := fitting_of_group? hfits he
  exact ⟨fitting.required ensures_metadata rfl hmetadata,
    fitting.required (ensures_list ensures_interface true false) rfl hinterfaces⟩

end Shape

/-- **Every name of a description is in snake case.** -/
theorem snakeNamed_of_ofDocument {doc : Json} {a : Api} (h : Api.ofDocument doc = .ok a) :
    a.SnakeNamed := by
  obtain ⟨hfits, hread⟩ := ofDocument_eq_ok_iff.mp h
  exact Shape.ensures_description doc a hfits hread

/-- Whatever is read from a file was taken from a document. -/
theorem snakeNamed_of_ofFile {fs : FileSystem} {path : String} {a : Api}
    (h : Api.ofFile fs path = .ok a) : a.SnakeNamed := by
  obtain ⟨size, -, h⟩ := bind_eq_ok_iff.mp h
  split at h
  · obtain ⟨_, h, -⟩ := bind_eq_ok_iff.mp h
    cases h
  · obtain ⟨text, -, h⟩ := bind_eq_ok_iff.mp h
    obtain ⟨doc, -, h⟩ := bind_eq_ok_iff.mp h
    exact snakeNamed_of_ofDocument h

/-! ### The names of operations -/

/-- **The names of a method can be written everywhere**: they are plain, and that of the
method is more than an underscore. -/
structure Method.PlainNamed (m : Method) : Prop where
  name : IsPlain m.name
  definable : m.name ≠ "_"
  parameters : ∀ p ∈ m.parameters, IsPlain p.name

theorem Method.SnakeNamed.plainNamed {m : Method} (h : m.SnakeNamed) : m.PlainNamed where
  name := isPlain_of_isSnakeIdentifier h.name
  definable := ne_underscore_of_isSnakeIdentifier h.name
  parameters p hp := isPlain_of_isSnakeIdentifier (h.parameters p hp)

/-- A destructor takes its names from the handle. -/
theorem plainNamed_destructorOf {handle : String} (h : isPascalIdentifier handle = true) :
    (Interface.destructorOf handle).PlainNamed := by
  have hsnake := isPlain_handleToSnake h
  have hverb : IsPlain "destroy_" := by decide
  refine ⟨hverb.append hsnake, ?_, ?_⟩
  · intro hname
    have hhead := congrArg (fun t => t.toList.head?) hname
    simp [Interface.destructorOf, Naming.destructorName] at hhead
  · intro p hp
    obtain rfl := List.mem_singleton.mp hp
    exact hsnake

/-- **The names of every operation can be written everywhere.** -/
theorem plainNamed_of_mem_operations {i : Interface} (h : i.SnakeNamed) {op : Operation}
    (hop : op ∈ i.operations) : op.method.PlainNamed := by
  rcases mem_operations_iff.mp hop with ⟨c, hc, rfl⟩ | ⟨handle, hhandle, rfl⟩ | ⟨m, hm, rfl⟩
  · exact (h.constructors c hc).plainNamed
  · -- the handle is read off a constructor, and only Pascal case is read as a handle
    obtain ⟨c, -, hreturned⟩ := Option.bind_eq_some_iff.mp hhandle
    exact plainNamed_destructorOf (Validate.returnedHandle?_eq_some_iff.mp hreturned).2
  · exact (h.methods m hm).plainNamed

end Bindery
