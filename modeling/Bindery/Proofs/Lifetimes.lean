import Bindery.Emit.JavaScript
import Bindery.Proofs.Coverage
import Bindery.Proofs.Prototypes

/-!
# The lives of handles

Nobody writes destructors. An interface has one for the handle that its first constructor
returns, and the interface that owns a handle is the first one that constructs it. The
three bindings come to the destructor of a handle in two ways: JavaScript and Swift put its
symbol together from names, and Kotlin looks it up among the operations of the owner and
goes through a native function.

In a valid description all constructors of an interface return the same handle, so what
the first one returns says which handle the interface constructs (`Interface.constructs`).
From this follow

* `filter_destroys` — the destructors of a handle are one for each interface that
  constructs it;
* `handleOwner?_eq_find?` and `Kotlin.closeOf_eq` — both ways lead to the first of them;
* `destructors_of_handle` — which destructors a handle has, and when it has exactly one;
* `ownership_portContext` — validation lets a handle pass that has none, and one that has two.

A handle is meant to have exactly one destructor. Nothing asks for it: constructors are checked
interface by interface, so two interfaces may construct one handle, and none need to.
-/

namespace Bindery

open Validate

/-! ### Interfaces that construct a handle -/

/-- **The interface constructs the handle**: one of its constructors returns it. -/
def Interface.constructs (i : Interface) (handle : String) : Bool :=
  i.constructors.any fun c => c.returnType? = some ("handle:" ++ handle)

/-- The destructor of a handle on an interface. -/
def Interface.destruction (i : Interface) (handle : String) : Operation :=
  ⟨i, .destructor, Interface.destructorOf handle⟩

theorem constructs_iff {i : Interface} {handle : String} :
    i.constructs handle = true ↔ ∃ c ∈ i.constructors, Makes c handle := by
  simp [Interface.constructs, Makes, Method.returnType?]

theorem mem_of_find?_constructs {is : List Interface} {handle : String} {i : Interface}
    (h : is.find? (·.constructs handle) = some i) : i ∈ is ∧ i.constructs handle = true :=
  ⟨List.mem_of_find?_eq_some h, by simpa using List.find?_some h⟩

section Owners

variable {a : Api} {types : Option Schema} (valid : Conforms a types)

include valid

/-- The first constructor of a valid interface speaks for all of them. -/
theorem constructedHandle?_eq_some_iff_constructs {i : Interface} (hi : i ∈ a.interfaces)
    {handle : String} : i.constructedHandle? = some handle ↔ i.constructs handle = true := by
  have hs := namedInPascalCase_of_handles types valid.handlesPascal
  have hok := valid.interfaces i hi
  rw [constructs_iff]
  exact constructedHandle?_eq_some_iff hs hok.constructors hok.oneHandle

/-- **The owner of a handle is the first interface that constructs it.** -/
theorem handleOwner?_eq_find? (handle : String) :
    a.handleOwner? handle = a.interfaces.find? (·.constructs handle) := by
  have htest : ∀ i ∈ a.interfaces,
      (i.constructedHandle? == some handle) = i.constructs handle := by
    intro i hi
    rw [Bool.eq_iff_iff, beq_iff_eq]
    exact constructedHandle?_eq_some_iff_constructs valid hi
  rw [Api.handleOwner?, ← List.head?_filter, List.filter_congr htest, List.head?_filter]

theorem destructorSymbol?_eq_find? (handle : String) :
    a.destructorSymbol? handle =
      (a.interfaces.find? (·.constructs handle)).map fun i =>
        (i.destruction handle).symbol a.name := by
  rw [Api.destructorSymbol?, handleOwner?_eq_find? valid]
  rfl

/-- An interface that constructs a handle has its destructor. -/
theorem destruction_mem_operations {i : Interface} (hi : i ∈ a.interfaces) {handle : String}
    (h : i.constructs handle = true) : i.destruction handle ∈ i.operations := by
  have hhandle := (constructedHandle?_eq_some_iff_constructs valid hi).mpr h
  exact mem_operations_iff.mpr (.inr (.inl ⟨handle, hhandle, rfl⟩))

end Owners

/-! ### The destructors of a handle -/

/-- **The operation destroys the handle**: it is a destructor that takes it. -/
def Operation.destroys (op : Operation) (handle : String) : Bool :=
  op.kind = .destructor && op.method.parameters.any fun p => p.type = "handle:" ++ handle

theorem destroys_destruction_iff {i : Interface} {handle handle' : String} :
    (i.destruction handle').destroys handle = true ↔ handle' = handle := by
  simp [Operation.destroys, Interface.destruction, Interface.destructorOf]

/-- The symbol of a destructor. -/
theorem symbol_destruction (i : Interface) (handle api : String) :
    (i.destruction handle).symbol api =
      api ++ "_" ++ i.name ++ "_destroy_" ++ Naming.handleToSnake handle := by
  have hword : "_destroy_" = "_" ++ "destroy_" := rfl
  change api ++ "_" ++ i.name ++ "_" ++ ("destroy_" ++ Naming.handleToSnake handle) = _
  rw [hword]
  simp only [String.append_assoc]

/-- The destructors of a handle on one interface: one if it constructs the handle. -/
theorem filter_destroys_operations (i : Interface) (handle : String) :
    i.operations.filter (·.destroys handle) =
      if i.constructedHandle? = some handle then [i.destruction handle] else [] := by
  -- constructors and methods are no destructors
  have hconstructors :
      (i.constructors.map (⟨i, .constructor, ·⟩ : Method → Operation)).filter
        (·.destroys handle) = [] := by
    simp [Operation.destroys]
  have hmethods :
      (i.methods.map (⟨i, .method, ·⟩ : Method → Operation)).filter (·.destroys handle) = [] := by
    simp [Operation.destroys]
  rw [Interface.operations, List.filter_append, List.filter_append, hconstructors, hmethods,
    List.nil_append, List.append_nil, Interface.destructor?]
  cases i.constructedHandle? with
  | none => rfl
  | some handle' =>
    change [i.destruction handle'].filter (·.destroys handle) = _
    rw [List.filter_cons, List.filter_nil]
    simp only [destroys_destruction_iff, Option.some.injEq]
    by_cases h : handle' = handle
    · rw [if_pos h, if_pos h, h]
    · rw [if_neg h, if_neg h]

/-- What only some members add is added by those. -/
theorem flatMap_ite {α β : Type} (p : α → Bool) (f : α → List β) (xs : List α) :
    (xs.flatMap fun x => if p x then f x else []) = (xs.filter p).flatMap f := by
  induction xs with
  | nil => rfl
  | cons x xs ih =>
    rw [List.flatMap_cons, List.filter_cons, ih]
    split <;> rfl

/-- **The destructors of a handle are one for each interface that constructs it**, in the
order of the interfaces. -/
theorem filter_destroys {a : Api} {types : Option Schema} (valid : Conforms a types)
    (handle : String) :
    a.operations.filter (·.destroys handle) =
      (a.interfaces.filter (·.constructs handle)).map (·.destruction handle) := by
  have hinterface : ∀ i ∈ a.interfaces, i.operations.filter (·.destroys handle) =
      if i.constructs handle then [i.destruction handle] else [] := by
    intro i hi
    rw [filter_destroys_operations]
    exact if_congr (constructedHandle?_eq_some_iff_constructs valid hi) rfl rfl
  rw [Api.operations, List.filter_flatMap, List.flatMap_congr hinterface, flatMap_ite,
    List.map_eq_flatMap]

/-! ### Classes of handles -/

/-- If a thing tells what it was made for, then each member of a list without repetitions
has exactly one. -/
theorem exists_filter_eq_singleton {α β : Type} [DecidableEq α] {made : α → β → Prop}
    {key : β → α} (hkey : ∀ x y, made x y → key y = x) {xs : List α} {ys : List β}
    (h : List.Forall₂ made xs ys) (hxs : xs.Nodup) {x : α} (hx : x ∈ xs) :
    ∃ y, ys.filter (fun y => key y = x) = [y] ∧ made x y := by
  -- Along the two lists; the key is at the head of one of them or behind it, but not both.
  induction h with
  | nil => cases hx
  | @cons x₀ y₀ xs ys hmade hrest ih =>
    obtain ⟨hx₀, hxs⟩ := List.nodup_cons.mp hxs
    rcases List.mem_cons.mp hx with rfl | hx
    · -- the others were made for others
      have hothers : ys.filter (fun y => key y = x) = [] := by
        rw [List.filter_eq_nil_iff]
        intro y hy hkeyed
        obtain ⟨x', hx', hmade'⟩ := exists_mem_of_forall₂ hrest.flip hy
        have heq : x' = x := (hkey x' y hmade').symm.trans (of_decide_eq_true hkeyed)
        exact hx₀ (heq ▸ hx')
      have hhead : decide (key y₀ = x) = true := decide_eq_true (hkey x y₀ hmade)
      exact ⟨y₀, by rw [List.filter_cons, if_pos hhead, hothers], hmade⟩
    · obtain ⟨y, hy, hmade'⟩ := ih hxs hx
      have hhead : ¬ decide (key y₀ = x) = true := by
        rw [decide_eq_true_eq, hkey x₀ y₀ hmade]
        rintro rfl
        exact hx₀ hx
      exact ⟨y, by rw [List.filter_cons, if_neg hhead, hy], hmade'⟩

/-- The classes of the JavaScript binding follow the handles. -/
theorem JavaScript.forall₂_classes {ctx : Context} {m : Module}
    (h : Module.ofContext ctx = .ok m) :
    List.Forall₂ (fun handle c => c.handle = handle ∧
      c.destructor = ctx.api.destructorSymbol? handle.name) ctx.api.handles m.classes := by
  obtain ⟨codecs, -, h⟩ := bind_eq_ok_iff.mp h
  obtain ⟨interfaces, -, h⟩ := bind_eq_ok_iff.mp h
  obtain rfl := pure_eq_ok_iff.mp h
  rw [List.forall₂_map_right_iff, List.forall₂_same]
  exact fun handle _ => ⟨rfl, rfl⟩

/-- The classes of the Swift binding follow the handles. -/
theorem Swift.forall₂_classes {ctx : Context} {source : Source}
    (h : Source.ofContext ctx = .ok source) :
    List.Forall₂ (fun handle c => c.handle = handle ∧
      c.destructor = ctx.api.destructorSymbol? handle.name) ctx.api.handles source.classes := by
  obtain ⟨hclasses, -⟩ := exists_of_source h
  refine (mapM_eq_ok_iff.mp hclasses).imp fun handle c hc => ?_
  obtain ⟨hhandle, hdestructor, -⟩ := exists_of_handleClass hc
  exact ⟨hhandle, hdestructor⟩

namespace Kotlin

/-- The classes of the Kotlin binding follow the handles. -/
theorem forall₂_classes {ctx : Context} {source : Source}
    (h : Source.ofContext ctx = .ok source) :
    List.Forall₂ (fun handle c => c.handle = handle ∧
      c.close = HandleClass.closeOf ctx.api handle.name) ctx.api.handles source.classes := by
  obtain ⟨-, -, hclasses, -⟩ := exists_of_source h
  refine (mapM_eq_ok_iff.mp hclasses).imp fun handle c hc => ?_
  obtain ⟨hhandle, hclose, -⟩ := exists_of_handleClass hc
  exact ⟨hhandle, hclose⟩

/-- The first destructor among the operations of an interface is its only one. -/
theorem find?_destructor {i : Interface} {handle : String}
    (h : i.constructedHandle? = some handle) :
    i.operations.find? (fun op => op.kind = .destructor) = some (i.destruction handle) := by
  have hconstructors : (i.constructors.map (⟨i, .constructor, ·⟩ : Method → Operation)).find?
      (fun op => op.kind = .destructor) = none := by
    simp
  rw [Interface.operations, Interface.destructor?, h, List.append_assoc, List.find?_append,
    hconstructors]
  rfl

/-- **What ends the life of a handle in Kotlin** is the native function of the destructor on
the owner. -/
theorem closeOf_eq {a : Api} {types : Option Schema} (valid : Conforms a types)
    (handle : String) :
    HandleClass.closeOf a handle = (a.interfaces.find? (·.constructs handle)).map fun i =>
      bridgeName (i.destruction handle) := by
  rw [HandleClass.closeOf, handleOwner?_eq_find? valid]
  cases howner : a.interfaces.find? (·.constructs handle) with
  | none => rfl
  | some i =>
    obtain ⟨hi, hconstructs⟩ := mem_of_find?_constructs howner
    have hhandle := (constructedHandle?_eq_some_iff_constructs valid hi).mpr hconstructs
    change (i.operations.find? fun op => op.kind = .destructor).map bridgeName = _
    rw [find?_destructor hhandle]
    rfl

end Kotlin

/-- A description with a handle that two interfaces construct, and one that none does. -/
def portContext : Context where
  api :=
    { metadata := { name := "demo", version := "1.0.0", language := .rust }
      schemas := ["demo.fbs"]
      handles := [{ name := "Cable" }, { name := "Port" }]
      interfaces := [
        { name := "dock"
          constructors := [
            { name := "create", returns := some { type := "handle:Port" },
              error := some "Outcome" }]
          methods := [
            { name := "plug", parameters := [⟨"cable", "handle:Cable", none, none⟩] }] },
        { name := "ferry"
          constructors := [
            { name := "create", returns := some { type := "handle:Port" },
              error := some "Outcome" }] }] }
  types := Abi.outcomeSchema

/-! ### How many destructors there are -/

/-- **A handle has one destructor for each interface that constructs it**, named after the
interface and the handle, and the one on the first of these interfaces is its destructor in
the bindings. So it has exactly one, as every handle should, exactly when exactly one interface
constructs it. -/
theorem destructors_of_handle {a : Api} {types : Schema} (valid : a.validate (some types) = [])
    (handle : String) :
    a.operations.filter (·.destroys handle) =
        (a.interfaces.filter (·.constructs handle)).map (·.destruction handle) ∧
      (∀ op ∈ a.operations, op.destroys handle = true → op.symbol a.name =
        a.name ++ "_" ++ op.interface.name ++ "_destroy_" ++ Naming.handleToSnake handle) ∧
      a.destructorSymbol? handle =
        (a.operations.filter (·.destroys handle)).head?.map (·.symbol a.name) ∧
      ((∃ op, a.operations.filter (·.destroys handle) = [op]) ↔
        ∃ i, a.interfaces.filter (·.constructs handle) = [i]) := by
  have hconforms := conforms_of_validate valid
  have hfilter := filter_destroys hconforms handle
  refine ⟨hfilter, fun op hop hdestroys => ?_, ?_, ?_⟩
  · have hmem : op ∈ a.operations.filter (·.destroys handle) := List.mem_filter.mpr ⟨hop, hdestroys⟩
    rw [hfilter] at hmem
    obtain ⟨i, -, rfl⟩ := List.mem_map.mp hmem
    exact symbol_destruction i handle a.name
  · rw [hfilter, destructorSymbol?_eq_find? hconforms, List.head?_map, List.head?_filter,
      Option.map_map]
    rfl
  -- One operation is left when one interface is left, since each gives its own.
  · rw [hfilter]
    simp only [List.map_eq_singleton_iff]
    constructor
    · rintro ⟨_, i, hi, -⟩
      exact ⟨i, hi⟩
    · rintro ⟨i, hi⟩
      exact ⟨_, i, hi, rfl⟩

theorem destructors_of_handle_port :
    portContext.api.validate (some portContext.types) = [] ∧
      portContext.api.operations.filter (·.destroys "Port") =
        (portContext.api.interfaces.filter (·.constructs "Port")).map (·.destruction "Port") ∧
      (∀ op ∈ portContext.api.operations, op.destroys "Port" = true →
        op.symbol portContext.api.name = portContext.api.name ++ "_" ++ op.interface.name ++
          "_destroy_" ++ Naming.handleToSnake "Port") ∧
      portContext.api.destructorSymbol? "Port" =
        (portContext.api.operations.filter (·.destroys "Port")).head?.map
          (·.symbol portContext.api.name) ∧
      ((∃ op, portContext.api.operations.filter (·.destroys "Port") = [op]) ↔
        ∃ i, portContext.api.interfaces.filter (·.constructs "Port") = [i]) := by
  have hvalid : portContext.api.validate (some portContext.types) = [] := by decide
  exact ⟨hvalid, destructors_of_handle hvalid "Port"⟩

/-- **A valid description with too few destructors and too many**: one of the declared
handles has none and lives forever, and the other has two, of which the bindings call the
first. -/
theorem ownership_portContext :
    Api.ofDocument portContext.api.toJson = .ok portContext.api ∧
      portContext.api.validate (some portContext.types) = [] ∧
      portContext.api.handles.map (·.name) = ["Cable", "Port"] ∧
      portContext.api.operations.filter (·.destroys "Cable") = [] ∧
      portContext.api.destructorSymbol? "Cable" = none ∧
      (portContext.api.operations.filter (·.destroys "Port")).map
        (·.symbol portContext.api.name) =
          ["demo_dock_destroy_port", "demo_ferry_destroy_port"] :=
  ⟨ofDocument_eq_ok_iff.mpr (by decide), by decide, rfl, by decide, by decide, by decide⟩

end Bindery
