import Bindery.Proofs.Coverage
import Bindery.Proofs.Emission.Go
import Bindery.Proofs.Names.Description
import Bindery.Proofs.Names.Spelling

/-!
# The structures behind the handles of a Go library

A method with a handle in front is dispatched through the Go interface of its interface, so
the structure behind a handle implements every interface with a method on the handle, also
the methods of that interface that are led by another handle. The scaffold writes all of them
one after the other, each with the text that the Go interface lists (`Implements`).

Go takes two methods of one name for an error. The names of the methods of one interface are
distinct in a valid description, but the names of several interfaces meet in one structure,
and a Go name is the Pascal case of a name. Hence the methods of a structure are distinct
exactly when no two operations that meet there are spelled alike (`MethodsApart`), whether
they come from one interface or from two. Go interfaces may share a name in the same way, and
then each of them belongs to another interface (`StandsFor.others`). `handles_implemented` says
so for every valid description, and `doubled_method_node` shows one whose scaffold defines a
method twice.
-/

namespace Bindery

open Validate

/-- The interface has a method with the handle in front. -/
def Interface.Touches (i : Interface) (handle : String) : Prop :=
  ∃ m ∈ i.methods, m.leadingHandle? = some handle

namespace Go

/-! ### What meets in a structure -/

/-- The dispatched methods of the interfaces with a method on a handle. -/
def operationsOn (a : Api) (handle : String) : List Operation :=
  (interfacesOn a handle).flatMap fun i => (dispatched i).map fun m => ⟨i, .method, m⟩

/-- **No two operations that meet in the structure behind a handle are spelled alike.** -/
def MethodsApart (a : Api) (handle : String) : Prop :=
  ∀ op ∈ a.operations, ∀ op' ∈ a.operations, IsDispatched op → IsDispatched op' →
    op.interface.Touches handle → op'.interface.Touches handle →
    Naming.condense op.method.name = Naming.condense op'.method.name → op = op'

variable {a : Api} {ctx : Context} {handle : String} {i : Interface}

theorem mem_interfacesOn_iff :
    i ∈ interfacesOn a handle ↔ i ∈ a.interfaces ∧ i.Touches handle := by
  rw [interfacesOn, List.mem_filter, List.any_eq_true]
  refine and_congr_right fun _ => ⟨?_, ?_⟩
  · rintro ⟨m, hm, hhandle⟩
    exact ⟨m, (List.mem_filter.mp hm).1, beq_iff_eq.mp hhandle⟩
  · rintro ⟨m, hm, hhandle⟩
    refine ⟨m, List.mem_filter.mpr ⟨hm, ?_⟩, beq_iff_eq.mpr hhandle⟩
    rw [hhandle]
    rfl

/-- An interface with a method on a handle has a Go interface. -/
theorem dispatched_ne_nil_of_touches (h : i.Touches handle) : dispatched i ≠ [] := by
  obtain ⟨m, hm, hhandle⟩ := h
  refine List.ne_nil_of_mem (List.mem_filter.mpr ⟨hm, ?_⟩ : m ∈ dispatched i)
  rw [hhandle]
  rfl

theorem mem_operationsOn_iff {op : Operation} :
    op ∈ operationsOn a handle ↔
      op ∈ a.operations ∧ IsDispatched op ∧ op.interface.Touches handle := by
  simp only [operationsOn, List.mem_flatMap, List.mem_map, mem_interfacesOn_iff]
  constructor
  · rintro ⟨i, ⟨hi, htouches⟩, m, hm, rfl⟩
    obtain ⟨hm, hhandle⟩ := List.mem_filter.mp hm
    refine ⟨mem_operations_of_mem hi ?_, ⟨rfl, hhandle⟩, htouches⟩
    exact List.mem_append_right _ (List.mem_map_of_mem hm)
  · rintro ⟨hop, ⟨hkind, hhandle⟩, htouches⟩
    obtain ⟨i, hi, hop⟩ := List.mem_flatMap.mp hop
    -- Only methods are dispatched.
    rcases mem_operations_iff.mp hop with ⟨c, -, rfl⟩ | ⟨h, -, rfl⟩ | ⟨m, hm, rfl⟩
    · cases hkind
    · cases hkind
    · exact ⟨i, ⟨hi, htouches⟩, m, List.mem_filter.mpr ⟨hm, hhandle⟩, rfl⟩

/-- What meets in a structure is part of the operations of the description, so a valid
description has nothing in it twice. -/
theorem nodup_operationsOn (valid : Conforms ctx.api (some ctx.types)) (handle : String) :
    (operationsOn ctx.api handle).Nodup := by
  have hdispatched : ∀ i ∈ interfacesOn ctx.api handle,
      ((dispatched i).map fun m => (⟨i, .method, m⟩ : Operation)).Sublist i.operations := by
    intro i _
    exact (List.filter_sublist.map _).trans (List.sublist_append_right _ _)
  have hon : ((interfacesOn ctx.api handle).flatMap Interface.operations).Sublist
      ctx.api.operations := List.filter_sublist.flatMap _
  exact (nodup_operations valid).sublist ((List.Sublist.flatMap_right _ hdispatched).trans hon)

/-! ### The methods of a structure -/

/-- The Go name of a method is the Pascal case of its name. -/
theorem name_of_methodSig {m : Method} {s : MethodSig} (h : MethodSig.ofMethod m = .ok s) :
    s.name = Naming.pascalCase m.name := by
  obtain ⟨params, -, h⟩ := bind_eq_ok_iff.mp h
  dsimp only at h
  -- the results come from four places, and the name does not depend on them
  split at h
  · obtain ⟨_, -, h⟩ := bind_eq_ok_iff.mp h
    obtain rfl := pure_eq_ok_iff.mp h
    rfl
  · obtain rfl := pure_eq_ok_iff.mp h
    rfl
  · obtain ⟨_, -, h⟩ := bind_eq_ok_iff.mp h
    obtain rfl := pure_eq_ok_iff.mp h
    rfl
  · obtain rfl := pure_eq_ok_iff.mp h
    rfl

/-- **What a structure is made of**: the names of its Go interfaces, and for each operation
that meets in it the text of the method. -/
theorem made_of_handleImpl {impl : HandleImpl} (h : HandleImpl.ofHandle ctx handle = .ok impl) :
    impl.handle = handle ∧
      impl.implements = (interfacesOn ctx.api handle).map interfaceName ∧
      List.Forall₂ (fun op x => MethodSig.ofMethod op.method = .ok x.1)
        (operationsOn ctx.api handle) impl.methods := by
  obtain ⟨methods, hmethods, h⟩ := bind_eq_ok_iff.mp h
  obtain rfl := pure_eq_ok_iff.mp h
  refine ⟨rfl, rfl, ?_⟩
  -- The methods of the operations are those that the generator goes through, in the same order.
  have hmap : (operationsOn ctx.api handle).map (·.method) =
      (interfacesOn ctx.api handle).flatMap dispatched := by
    rw [operationsOn, List.map_flatMap]
    simp only [List.map_map, Function.comp_def, List.map_id']
  have hmade := mapM_eq_ok_iff.mp hmethods
  rw [← hmap, List.forall₂_map_left_iff] at hmade
  refine hmade.imp fun op x hx => ?_
  obtain ⟨s, hs, hx⟩ := bind_eq_ok_iff.mp hx
  obtain ⟨answer, -, hx⟩ := bind_eq_ok_iff.mp hx
  obtain rfl := pure_eq_ok_iff.mp hx
  exact hs

/-- **The methods of a structure are distinct exactly when no two operations that meet in it
are spelled alike.** -/
theorem nodup_methods_iff (snake : ctx.api.SnakeNamed) (valid : Conforms ctx.api (some ctx.types))
    {impl : HandleImpl} (h : HandleImpl.ofHandle ctx handle = .ok impl) :
    (impl.methods.map (·.1.name)).Nodup ↔ MethodsApart ctx.api handle := by
  obtain ⟨-, -, hmethods⟩ := made_of_handleImpl h
  have hnames : impl.methods.map (·.1.name) =
      (operationsOn ctx.api handle).map fun op => Naming.pascalCase op.method.name :=
    map_eq_map_of_forall₂ hmethods fun op x hx => name_of_methodSig hx
  -- distinct operations have names in snake case, so Pascal case loses idle underscores only
  have hsnake : ∀ op ∈ operationsOn ctx.api handle, isSnakeIdentifier op.method.name = true := by
    intro op hop
    obtain ⟨i, hi, m, hm, rfl⟩ : ∃ i ∈ ctx.api.interfaces, ∃ m ∈ i.methods, op = ⟨i, .method, m⟩ := by
      obtain ⟨i, hi, hop⟩ := List.mem_flatMap.mp hop
      obtain ⟨m, hm, rfl⟩ := List.mem_map.mp hop
      exact ⟨i, (List.mem_filter.mp hi).1, m, (List.mem_filter.mp hm).1, rfl⟩
    exact ((snake.interfaces i hi).methods m hm).name
  rw [hnames, List.nodup_map_iff_inj_on (nodup_operationsOn valid handle)]
  constructor
  · intro hinj op hop op' hop' hdispatched hdispatched' htouches htouches' halike
    have hmem := mem_operationsOn_iff.mpr ⟨hop, hdispatched, htouches⟩
    have hmem' := mem_operationsOn_iff.mpr ⟨hop', hdispatched', htouches'⟩
    refine hinj op hmem op' hmem' ?_
    exact (Naming.pascalCase_eq_iff (hsnake op hmem) (hsnake op' hmem')).mpr halike
  · intro hapart op hmem op' hmem' halike
    obtain ⟨hop, hdispatched, htouches⟩ := mem_operationsOn_iff.mp hmem
    obtain ⟨hop', hdispatched', htouches'⟩ := mem_operationsOn_iff.mp hmem'
    refine hapart op hop op' hop' hdispatched hdispatched' htouches htouches' ?_
    exact (Naming.pascalCase_eq_iff (hsnake op hmem) (hsnake op' hmem')).mp halike

/-! ### Implementing a Go interface -/

/-- The head of a method of a structure. -/
def methodHead (impl : HandleImpl) (text : String) : String :=
  "func (" ++ ((Naming.lowerFirst (handleStruct impl.handle)).toList.headD 's').toString ++ " *"
    ++ handleStruct impl.handle ++ ") " ++ text ++ " \x7b"

/-- **The structure behind a handle implements a Go interface.** -/
structure Implements (impl : HandleImpl) (d : InterfaceDecl) : Prop where
  /-- The scaffold says so. -/
  asserted : ⟨0, "var _ " ++ d.name ++ " = (*" ++ handleStruct impl.handle ++ ")(nil)"⟩ ∈ impl.lines
  /-- Every method of the Go interface is one of the structure. -/
  methods : ∀ s ∈ d.methods, s ∈ impl.methods.map (·.1)
  /-- Whatever the Go interface lists, the scaffold defines in the same text. -/
  defined : ∀ line ∈ d.lines, line.depth = 1 → ⟨0, methodHead impl line.text⟩ ∈ impl.lines

/-- **What a Go interface is made of.** -/
theorem made_of_decl {d : InterfaceDecl} (h : InterfaceDecl.ofInterface i = .ok d) :
    d.name = interfaceName i ∧
      List.Forall₂ (fun m s => MethodSig.ofMethod m = .ok s) (dispatched i) d.methods := by
  obtain ⟨methods, hmethods, h⟩ := bind_eq_ok_iff.mp h
  obtain rfl := pure_eq_ok_iff.mp h
  exact ⟨rfl, mapM_eq_ok_iff.mp hmethods⟩

theorem mem_methods_of_decl {impl : HandleImpl} (h : HandleImpl.ofHandle ctx handle = .ok impl)
    (hi : i ∈ interfacesOn ctx.api handle) {d : InterfaceDecl}
    (hd : InterfaceDecl.ofInterface i = .ok d) : ∀ s ∈ d.methods, s ∈ impl.methods.map (·.1) := by
  intro s hs
  obtain ⟨-, hsigs⟩ := made_of_decl hd
  obtain ⟨m, hm, hmade⟩ := exists_mem_of_forall₂ hsigs.flip hs
  obtain ⟨-, -, hall⟩ := made_of_handleImpl h
  have hop : (⟨i, .method, m⟩ : Operation) ∈ operationsOn ctx.api handle :=
    List.mem_flatMap.mpr ⟨i, hi, List.mem_map_of_mem hm⟩
  obtain ⟨x, hx, hsame⟩ := exists_mem_of_forall₂ hall hop
  refine List.mem_map.mpr ⟨x, hx, ?_⟩
  exact Except.ok.inj (hsame.symm.trans hmade)

/-- The lines of a Go interface below its head are its methods. -/
theorem exists_of_mem_lines {d : InterfaceDecl} {line : Line} (h : line ∈ d.lines)
    (hdepth : line.depth = 1) : ∃ s ∈ d.methods, line.text = s.text := by
  rw [InterfaceDecl.lines, List.mem_append, List.mem_append] at h
  -- Heads, remarks and braces stand at the margin, so what is one step in is a method.
  rcases h with (hhead | hremark) | hbody
  · simp only [List.mem_cons, List.not_mem_nil, or_false] at hhead
    rcases hhead with rfl | rfl <;> cases hdepth
  · obtain ⟨text, -, rfl⟩ := List.mem_map.mp hremark
    cases hdepth
  · rw [Code.block, Code.blockWith, Code.enclosed, List.mem_append, List.mem_cons,
      List.mem_singleton] at hbody
    rcases hbody with (rfl | hmethod) | rfl
    · cases hdepth
    · obtain ⟨inner, hinner, rfl⟩ := List.mem_map.mp hmethod
      obtain ⟨text, htext, rfl⟩ := List.mem_map.mp hinner
      obtain ⟨s, hs, rfl⟩ := List.mem_map.mp htext
      exact ⟨s, hs, rfl⟩
    · cases hdepth

/-- A structure defines its methods. -/
theorem methodHead_mem_lines {impl : HandleImpl} {x : MethodSig × Option String}
    (h : x ∈ impl.methods) : ⟨0, methodHead impl x.1.text⟩ ∈ impl.lines := by
  refine List.mem_append_right _ (List.mem_flatMap.mpr ⟨x, h, ?_⟩)
  exact List.mem_append_right _ List.mem_cons_self

/-- A structure says which Go interfaces it implements. -/
theorem assertion_mem_lines {impl : HandleImpl} {name : String} (h : name ∈ impl.implements) :
    ⟨0, "var _ " ++ name ++ " = (*" ++ handleStruct impl.handle ++ ")(nil)"⟩ ∈ impl.lines := by
  have hsome : impl.implements.isEmpty = false := by
    rw [List.isEmpty_eq_false_iff]
    exact List.ne_nil_of_mem h
  refine List.mem_append_left _ (List.mem_append_right _ ?_)
  rw [hsome, if_neg Bool.false_ne_true]
  exact List.mem_map_of_mem (List.mem_cons_of_mem _ (List.mem_map_of_mem h))

/-- **The Go interface of an interface is implemented behind every handle that it touches.** -/
theorem implements_of_decl {impl : HandleImpl} (h : HandleImpl.ofHandle ctx handle = .ok impl)
    (hi : i ∈ ctx.api.interfaces) (htouches : i.Touches handle) {d : InterfaceDecl}
    (hd : InterfaceDecl.ofInterface i = .ok d) : Implements impl d := by
  have hon : i ∈ interfacesOn ctx.api handle := mem_interfacesOn_iff.mpr ⟨hi, htouches⟩
  have hmethods := mem_methods_of_decl h hon hd
  obtain ⟨-, himplements, -⟩ := made_of_handleImpl h
  refine ⟨assertion_mem_lines ?_, hmethods, fun line hline hdepth => ?_⟩
  · rw [himplements, (made_of_decl hd).1]
    exact List.mem_map_of_mem hon
  -- A line one step in is a method, and its head is in the methods of the handle.
  · obtain ⟨s, hs, htext⟩ := exists_of_mem_lines hline hdepth
    obtain ⟨x, hx, rfl⟩ := List.mem_map.mp (hmethods s hs)
    rw [htext]
    exact methodHead_mem_lines hx

/-- **The structure behind a declared handle**, next to the Go interfaces. -/
structure StandsFor (ctx : Context) (decls : List InterfaceDecl) (h : Handle)
    (impl : HandleImpl) : Prop where
  made : HandleImpl.ofHandle ctx h.name = .ok impl
  /-- Its methods are distinct exactly when the operations that meet in it are apart. -/
  distinct : (impl.methods.map (·.1.name)).Nodup ↔ MethodsApart ctx.api h.name
  /-- It implements the Go interface of every interface with a method on the handle. -/
  own : ∀ i ∈ ctx.api.interfaces, i.Touches h.name →
    ∃ d ∈ decls, InterfaceDecl.ofInterface i = .ok d ∧ d.name = interfaceName i ∧ Implements impl d
  /-- Another Go interface of that name belongs to an interface that is spelled alike. -/
  others : ∀ i ∈ ctx.api.interfaces, i.Touches h.name → ∀ d ∈ decls, d.name = interfaceName i →
    Implements impl d ∨ ∃ j ∈ ctx.api.interfaces, j ≠ i ∧
      Naming.condense j.name = Naming.condense i.name ∧ InterfaceDecl.ofInterface j = .ok d

/-- **Behind every declared handle of a valid description stands a structure** that implements
the Go interface of every interface with a method on the handle, and defines each method once
exactly when no two of the operations that meet in it are spelled alike. -/
theorem handles_implemented {doc : Json} {ctx : Context}
    (described : Api.ofDocument doc = .ok ctx.api)
    (valid : ctx.api.validate (some ctx.types) = []) :
    ∃ decls impls, interfaceDecls ctx.api = .ok decls ∧
      ctx.api.handles.mapM (fun h => HandleImpl.ofHandle ctx h.name) = .ok impls ∧
      List.Forall₂ (StandsFor ctx decls) ctx.api.handles impls := by
  have snake := snakeNamed_of_ofDocument described
  have conforms := conforms_of_validate valid
  obtain ⟨decls, hdecls⟩ := succeeds_interfaceDecls conforms
  obtain ⟨impls, himpls⟩ := exists_mapM_eq_ok fun (h : Handle) (_ : h ∈ ctx.api.handles) =>
    succeeds_handleImpl conforms h.name
  refine ⟨decls, impls, hdecls, himpls, ?_⟩
  have hmade := mapM_eq_ok_iff.mp hdecls
  refine (mapM_eq_ok_iff.mp himpls).imp fun h impl himpl => ?_
  refine ⟨himpl, nodup_methods_iff snake conforms himpl, ?_, ?_⟩
  · intro i hi htouches
    -- an interface that touches the handle dispatches something, so it is declared
    have hnonempty : i ∈ ctx.api.interfaces.filter fun i => !(dispatched i).isEmpty := by
      refine List.mem_filter.mpr ⟨hi, ?_⟩
      simpa using dispatched_ne_nil_of_touches htouches
    obtain ⟨d, hd, hown⟩ := exists_mem_of_forall₂ hmade hnonempty
    exact ⟨d, hd, hown, (made_of_decl hown).1, implements_of_decl himpl hi htouches hown⟩
  · intro i hi htouches d hd hname
    obtain ⟨j, hj, hown⟩ := exists_mem_of_forall₂ hmade.flip hd
    replace hj := (List.mem_filter.mp hj).1
    -- a declaration of the same name may come from another interface that is spelled alike
    by_cases hji : j = i
    · subst hji
      exact .inl (implements_of_decl himpl hi htouches hown)
    · refine .inr ⟨j, hj, hji, ?_, hown⟩
      rw [(made_of_decl hown).1] at hname
      exact (Naming.pascalCase_eq_iff (snake.interfaces j hj).name
        (snake.interfaces i hi).name).mp hname

/-- Two handles that meet in one interface. -/
def stageContext : Context where
  api :=
    { metadata := { name := "demo", version := "1.0.0", language := .go }
      schemas := ["demo.fbs"]
      handles := [{ name := "Actor" }, { name := "Sword" }]
      interfaces := [
        { name := "stage"
          methods := [
            { name := "enter", parameters := [⟨"actor", "handle:Actor", none, none⟩,
                ⟨"line", "string", none, none⟩] },
            { name := "swing", parameters := [⟨"sword", "handle:Sword", none, none⟩]
              returns := some { type := "int32" } },
            { name := "applaud" }] },
        { name := "light"
          methods := [
            { name := "follow", parameters := [⟨"actor", "handle:Actor", none, none⟩] }] }] }
  types := Keyed.empty

theorem handles_implemented_stage :
    ∃ decls impls, interfaceDecls stageContext.api = .ok decls ∧
      stageContext.api.handles.mapM (fun h => HandleImpl.ofHandle stageContext h.name) = .ok impls ∧
      impls.map (fun impl => impl.methods.map (·.1.name)) =
        [["Enter", "Swing", "Follow"], ["Enter", "Swing"]] ∧
      List.Forall₂ (StandsFor stageContext decls) stageContext.api.handles impls := by
  have hdocument : Api.ofDocument stageContext.api.toJson = .ok stageContext.api :=
    ofDocument_eq_ok_iff.mpr (by decide)
  obtain ⟨decls, impls, hdecls, himpls, hall⟩ := handles_implemented hdocument (by decide)
  refine ⟨decls, impls, hdecls, himpls, ?_, hall⟩
  have hnames : (stageContext.api.handles.mapM fun h => HandleImpl.ofHandle stageContext h.name).map
      (·.map fun impl => impl.methods.map (·.1.name)) =
        .ok [["Enter", "Swing", "Follow"], ["Enter", "Swing"]] := by decide
  rw [himpls] at hnames
  exact Except.ok.inj hnames

/-- Two interfaces that both draw a node. -/
def nodeContext : Context where
  api :=
    { metadata := { name := "demo", version := "1.0.0", language := .go }
      schemas := ["demo.fbs"]
      handles := [{ name := "Node" }]
      interfaces := [
        { name := "scene"
          methods := [
            { name := "draw", parameters := [⟨"node", "handle:Node", none, none⟩] }] },
        { name := "layer"
          methods := [
            { name := "draw", parameters := [⟨"node", "handle:Node", none, none⟩] }] }] }
  types := Keyed.empty

/-- **A valid description whose scaffold defines a method twice.** -/
theorem doubled_method_node :
    Api.ofDocument nodeContext.api.toJson = .ok nodeContext.api ∧
      nodeContext.api.validate (some nodeContext.types) = [] ∧
      ∃ impl, HandleImpl.ofHandle nodeContext "Node" = .ok impl ∧
        impl.methods.map (·.1.name) = ["Draw", "Draw"] ∧
        impl.lines.filter (fun line => line.text = "func (n *NodeImpl) Draw() \x7b") =
          Code.lines ["func (n *NodeImpl) Draw() \x7b", "func (n *NodeImpl) Draw() \x7b"] := by
  exact ⟨ofDocument_eq_ok_iff.mpr (by decide), by decide, _, rfl, by decide, by decide +kernel⟩

end Go

end Bindery
