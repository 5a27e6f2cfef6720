import Bindery.Abi.Service
import Bindery.Api.Operation
import Bindery.Load
import Bindery.Proofs.Conformance
import Bindery.Proofs.Description

/-!
# Symbols of the C interface

A symbol joins the names of the description, of the interface and of the operation by
underscores, and names may hold underscores themselves. So a symbol does not tell the
names that it was joined from: two pairs of names give the same symbol exactly when one
of them borrows the end of an interface name for the beginning of an operation name
(`joined_eq_joined_iff`).

Validation keeps the names of interfaces apart, and the names of the operations of one
interface, constructors and destructor included, so no two operations of a description
have the same pair of names (`nodup_keys`). Neither rule looks across interfaces or at
the platform services. What a valid description needs besides to have distinct symbols is
therefore stated exactly by `SymbolsApart`, in terms of the names that the description
writes:

* `symbolsDistinct_iff` — the symbols of a valid description are distinct from each other
  and from the services exactly when no names overlap and no operation is named like a
  service;
* `clashingApi_symbols` — a valid description for which neither holds.
-/

namespace Bindery

/-! ### Joining with an underscore -/

/-- One name continues another: `j` is `i` and a rest, and `m` is that rest and `n`, so
that `i_m` and `j_n` are the same text. -/
def Overlap (i m j n : String) : Prop := ∃ r, j = i ++ "_" ++ r ∧ m = r ++ "_" ++ n

theorem overlap_iff_dropPrefix? {i m j n : String} :
    Overlap i m j n ↔ ∃ r ∈ Text.dropPrefix? (i ++ "_") j, m = r ++ "_" ++ n := by
  unfold Overlap
  simp only [Option.mem_def, Text.dropPrefix?_eq_some_iff]

instance (i m j n : String) : Decidable (Overlap i m j n) :=
  decidable_of_iff ((Text.dropPrefix? (i ++ "_") j).any fun r => m = r ++ "_" ++ n) <| by
    rw [overlap_iff_dropPrefix?]
    cases Text.dropPrefix? (i ++ "_") j <;> simp

/-- One list cut at a separator in two ways: at the same place, or once further right. -/
theorem append_cons_cases {α : Type} {c : α} {xs ys us vs : List α}
    (h : xs ++ c :: ys = us ++ c :: vs) :
    (xs = us ∧ ys = vs) ∨ (∃ r, us = xs ++ c :: r ∧ ys = r ++ c :: vs) ∨
      ∃ r, xs = us ++ c :: r ∧ vs = r ++ c :: ys := by
  -- the cuts are at the same separator, or the gap between them begins with one
  rcases List.append_eq_append_iff.mp h with ⟨gap, hus, hys⟩ | ⟨gap, hxs, hvs⟩
  · cases gap with
    | nil => exact .inl ⟨by simpa using hus.symm, (List.cons.inj hys).2⟩
    | cons d r =>
      obtain ⟨rfl, hrest⟩ := List.cons.inj hys
      exact .inr (.inl ⟨r, hus, hrest⟩)
  · cases gap with
    | nil => exact .inl ⟨by simpa using hxs, (List.cons.inj hvs).2.symm⟩
    | cons d r =>
      obtain ⟨rfl, hrest⟩ := List.cons.inj hvs
      exact .inr (.inr ⟨r, hxs, hrest⟩)

theorem toList_joined (i m : String) : (i ++ "_" ++ m).toList = i.toList ++ '_' :: m.toList := by
  simp

/-- The rest of an overlap, as a list of characters. -/
theorem overlap_of_toList {i m j n : String} {r : List Char}
    (hj : j.toList = i.toList ++ '_' :: r) (hm : m.toList = r ++ '_' :: n.toList) :
    Overlap i m j n := by
  refine ⟨String.ofList r, ?_, ?_⟩
  · apply String.toList_injective
    rw [toList_joined, String.toList_ofList, hj]
  · apply String.toList_injective
    rw [toList_joined, String.toList_ofList, hm]

/-- **When two joined texts are the same.** The underscore that was put between the names
need not be the same one on both sides. -/
theorem joined_eq_joined_iff {i m j n : String} :
    i ++ "_" ++ m = j ++ "_" ++ n ↔ (i = j ∧ m = n) ∨ Overlap i m j n ∨ Overlap j n i m := by
  constructor
  · intro h
    have hlist := congrArg String.toList h
    rw [toList_joined, toList_joined] at hlist
    -- The first underscore that is cut at lies at the same place, or further on in one of the
    -- two.
    rcases append_cons_cases hlist with ⟨hi, hm⟩ | ⟨r, hj, hm⟩ | ⟨r, hi, hn⟩
    · exact .inl ⟨String.toList_injective hi, String.toList_injective hm⟩
    · exact .inr (.inl (overlap_of_toList hj hm))
    · exact .inr (.inr (overlap_of_toList hi hn))
  · rintro (⟨rfl, rfl⟩ | ⟨r, rfl, rfl⟩ | ⟨r, rfl, rfl⟩)
    · rfl
    · simp only [String.append_assoc]
    · simp only [String.append_assoc]

/-- Names that overlap are not the same names. -/
theorem Overlap.ne {i m j n : String} (h : Overlap i m j n) : (i, m) ≠ (j, n) := by
  obtain ⟨r, rfl, rfl⟩ := h
  intro heq
  have hlength := congrArg String.length (Prod.mk.inj heq).1
  simp only [String.length_append] at hlength
  have hone : "_".length = 1 := rfl
  omega

/-- Two words without underscores can be joined in one way only. -/
theorem joined_eq_joined_iff_of_plain {i m j n : String} (hj : '_' ∉ j.toList)
    (hn : '_' ∉ n.toList) : i ++ "_" ++ m = j ++ "_" ++ n ↔ (i, m) = (j, n) := by
  rw [joined_eq_joined_iff, Prod.mk.injEq]
  constructor
  · rintro (hsame | ⟨r, rfl, -⟩ | ⟨r, -, rfl⟩)
    · exact hsame
    · exact absurd (by rw [toList_joined]; simp) hj
    · exact absurd (by rw [toList_joined]; simp) hn
  · exact .inl

/-! ### The names of operations -/

/-- The interface and the operation that a symbol is joined from. -/
def Operation.key (op : Operation) : String × String := (op.interface.name, op.method.name)

/-- The names of the operations of an interface. -/
theorem map_key_operations (i : Interface) :
    i.operations.map Operation.key =
      (i.constructors.map (·.name) ++ i.destructor?.toList.map (·.name) ++
        i.methods.map (·.name)).map (i.name, ·) := by
  simp [Interface.operations, Operation.key, Function.comp_def]

theorem interface_of_mem_operations {i : Interface} {op : Operation} (h : op ∈ i.operations) :
    op.interface = i := by
  simp only [Interface.operations, List.mem_append, List.mem_map] at h
  rcases h with (⟨_, -, rfl⟩ | ⟨_, -, rfl⟩) | ⟨_, -, rfl⟩ <;> rfl

section Valid

variable {s : Validate.Scope} {i : Interface} {a : Api}

open Validate

/-- A constructor is not named like a destructor. -/
theorem name_ne_destructorName {c : Method} (h : s.ConstructorOk c) (handle : String) :
    c.name ≠ Naming.destructorName handle := by
  intro heq
  -- Constructors begin with a `c`, and destructors with a `d`.
  have hhead : c.name.toList.head? = some 'c' := by
    rcases h.named with hname | ⟨rest, -, hname⟩
    · rw [hname]
      rfl
    · rw [hname, String.toList_append]
      rfl
  have hhead' : (Naming.destructorName handle).toList.head? = some 'd' := by
    rw [Naming.destructorName, String.toList_append]
    rfl
  rw [heq, hhead'] at hhead
  exact absurd hhead (by decide)

/-- **The operations of one interface have distinct names**, the destructor included. -/
theorem nodup_operationNames (hs : NamedInPascalCase s) (h : s.InterfaceOk i) :
    (i.constructors.map (·.name) ++ i.destructor?.toList.map (·.name) ++
      i.methods.map (·.name)).Nodup := by
  have happart : ∀ x ∈ i.constructors.map (·.name), ∀ y ∈ i.methods.map (·.name), x ≠ y := by
    intro x hx y hy
    obtain ⟨c, hc, rfl⟩ := List.mem_map.mp hx
    obtain ⟨m, hm, rfl⟩ := List.mem_map.mp hy
    exact (h.apart m hm c hc).symm
  -- there is a destructor exactly when a handle is constructed
  cases hd : i.constructedHandle? with
  | none =>
    have hnone : i.destructor? = none := by rw [Interface.destructor?, hd, Option.map_none]
    rw [hnone, Option.toList_none, List.map_nil, List.append_nil]
    exact List.nodup_append.mpr ⟨h.constructorNames, h.methodNames, happart⟩
  | some handle =>
    have hsome : i.destructor? = some (Interface.destructorOf handle) := by
      rw [Interface.destructor?, hd, Option.map_some]
    obtain ⟨c₀, hc₀, hmakes⟩ :=
      (constructedHandle?_eq_some_iff hs h.constructors h.oneHandle).mp hd
    rw [hsome, Option.toList_some, List.map_singleton, List.append_assoc, List.singleton_append]
    refine List.nodup_append.mpr ⟨h.constructorNames, List.nodup_cons.mpr ⟨?_, h.methodNames⟩, ?_⟩
    · -- no method has the name of the destructor
      intro hmem
      obtain ⟨m, hm, hname⟩ := List.mem_map.mp hmem
      exact h.destructor c₀ hc₀ handle hmakes m hm hname
    · intro x hx y hy
      rcases List.mem_cons.mp hy with rfl | hy
      · obtain ⟨c, hc, rfl⟩ := List.mem_map.mp hx
        exact name_ne_destructorName (h.constructors c hc) handle
      · exact happart x hx y hy

/-- **No two operations of a valid description have the same pair of names.** -/
theorem nodup_keys {types : Option Schema} (h : Conforms a types) :
    (a.operations.map Operation.key).Nodup := by
  have hs := namedInPascalCase_of_handles types h.handlesPascal
  rw [Api.operations, List.map_flatMap]
  refine List.nodup_flatMap.mpr ⟨?_, ?_⟩
  · intro i hi
    rw [map_key_operations]
    have hinj : Function.Injective ((i.name, ·) : String → String × String) :=
      Prod.mk_right_injective i.name
    exact (nodup_operationNames hs (h.interfaces i hi)).map hinj
  · -- keys of different interfaces differ in their first part
    have hnames : a.interfaces.Pairwise fun i j => i.name ≠ j.name :=
      List.pairwise_map.mp h.interfaceNames
    refine hnames.imp fun {i j} hne => ?_
    intro key hi hj
    obtain ⟨op, hop, rfl⟩ := List.mem_map.mp hi
    obtain ⟨op', hop', heq⟩ := List.mem_map.mp hj
    have hname : op'.interface.name = op.interface.name := (Prod.mk.inj heq).1
    rw [interface_of_mem_operations hop, interface_of_mem_operations hop'] at hname
    exact hne hname.symm

end Valid

/-! ### Distinct symbols -/

/-- **The symbols that a header declares are distinct**: those of the operations from each
other, and from those of the platform services. -/
structure SymbolsDistinct (a : Api) : Prop where
  operations : (a.operations.map (·.symbol a.name)).Nodup
  services : ∀ op ∈ a.operations, ∀ service ∈ Abi.services,
    op.symbol a.name ≠ service.symbol a.name

/-- The names of interfaces and operations that the platform services take. -/
def reservedKeys : List (String × String) :=
  [("log", "sink"), ("resource", "count"), ("resource", "name"), ("resource", "exists"),
    ("resource", "size"), ("resource", "read")]

/-- **Names that keep symbols apart**: no interface continues another whose operation it
meets, and no operation is named like a platform service. -/
structure SymbolsApart (a : Api) : Prop where
  noOverlap : ∀ op ∈ a.operations, ∀ op' ∈ a.operations,
    ¬ Overlap op.interface.name op.method.name op'.interface.name op'.method.name
  notReserved : ∀ op ∈ a.operations, op.key ∉ reservedKeys

theorem symbolsApart_iff {a : Api} :
    SymbolsApart a ↔
      (∀ op ∈ a.operations, ∀ op' ∈ a.operations,
        ¬ Overlap op.interface.name op.method.name op'.interface.name op'.method.name) ∧
      ∀ op ∈ a.operations, op.key ∉ reservedKeys :=
  ⟨fun h => ⟨h.noOverlap, h.notReserved⟩, fun h => ⟨h.1, h.2⟩⟩

instance (a : Api) : Decidable (SymbolsApart a) := decidable_of_iff' _ symbolsApart_iff

/-- The names of an operation, joined. -/
theorem symbol_eq_symbol_iff {op op' : Operation} {api : String} :
    op.symbol api = op'.symbol api ↔
      op.key = op'.key ∨
        Overlap op.interface.name op.method.name op'.interface.name op'.method.name ∨
        Overlap op'.interface.name op'.method.name op.interface.name op.method.name := by
  unfold Operation.symbol Naming.cSymbol Operation.key
  rw [Prod.mk.injEq, ← joined_eq_joined_iff]
  simp only [String.append_assoc, String.append_right_inj]

/-- The services are named by two words each. -/
theorem map_name_services :
    Abi.services.map (·.name) = reservedKeys.map fun key => key.1 ++ "_" ++ key.2 := by
  decide

/-- **An operation has the symbol of a platform service exactly when it is named like one.** -/
theorem exists_service_symbol_iff {op : Operation} {api : String} :
    (∃ service ∈ Abi.services, op.symbol api = service.symbol api) ↔ op.key ∈ reservedKeys := by
  have hsymbol (service : Abi.Service) :
      op.symbol api = service.symbol api ↔
        op.interface.name ++ "_" ++ op.method.name = service.name := by
    unfold Operation.symbol Naming.cSymbol Abi.Service.symbol Naming.serviceSymbol
    simp only [String.append_assoc, String.append_right_inj]
  have hplain : ∀ key ∈ reservedKeys, '_' ∉ key.1.toList ∧ '_' ∉ key.2.toList := by decide
  calc (∃ service ∈ Abi.services, op.symbol api = service.symbol api)
      ↔ op.interface.name ++ "_" ++ op.method.name ∈ Abi.services.map (·.name) := by
        simp only [hsymbol, List.mem_map, eq_comm]
    _ ↔ ∃ key ∈ reservedKeys, op.interface.name ++ "_" ++ op.method.name =
          key.1 ++ "_" ++ key.2 := by
        simp only [map_name_services, List.mem_map, eq_comm]
    _ ↔ op.key ∈ reservedKeys := by
        constructor
        · rintro ⟨key, hkey, heq⟩
          obtain ⟨h₁, h₂⟩ := hplain key hkey
          have hsame : op.key = key := (joined_eq_joined_iff_of_plain h₁ h₂).mp heq
          rw [hsame]
          exact hkey
        · intro hkey
          exact ⟨op.key, hkey, rfl⟩

/-- **When the symbols of a valid description are distinct.** -/
theorem symbolsDistinct_iff {a : Api} {types : Schema} (valid : a.validate (some types) = []) :
    SymbolsDistinct a ↔ SymbolsApart a := by
  have hkeys := nodup_keys (Validate.conforms_of_validate valid)
  -- operations with distinct keys are distinct, so equal symbols belong to different keys
  have hops : a.operations.Nodup := hkeys.of_map _
  constructor
  · rintro ⟨hoperations, hservices⟩
    have hinj := (List.nodup_map_iff_inj_on hops).mp hoperations
    refine ⟨fun op hop op' hop' hoverlap => ?_, fun op hop hreserved => ?_⟩
    · have heq : op = op' := hinj op hop op' hop' (symbol_eq_symbol_iff.mpr (.inr (.inl hoverlap)))
      exact hoverlap.ne (congrArg Operation.key heq)
    · have hclash : ∃ service ∈ Abi.services, op.symbol a.name = service.symbol a.name :=
        exists_service_symbol_iff.mpr hreserved
      obtain ⟨service, hservice, heq⟩ := hclash
      exact hservices op hop service hservice heq
  · rintro ⟨hoverlap, hreserved⟩
    refine ⟨(List.nodup_map_iff_inj_on hops).mpr fun op hop op' hop' heq => ?_,
      fun op hop service hservice heq => ?_⟩
    · rcases symbol_eq_symbol_iff.mp heq with hkey | hover | hover
      · exact List.inj_on_of_nodup_map hkeys hop hop' hkey
      · exact absurd hover (hoverlap op hop op' hop')
      · exact absurd hover (hoverlap op' hop' op hop)
    · exact hreserved op hop (exists_service_symbol_iff.mp ⟨service, hservice, heq⟩)

/-- The only type of the scene below. -/
def sceneSchema : Schema := Keyed.empty.insert "Status" { kind := .enum }

/-- Two interfaces, of which one continues the name of the other. -/
def sceneApi : Api where
  metadata := { name := "demo", version := "1.0.0", language := .rust }
  schemas := ["demo.fbs"]
  handles := [{ name := "Scene" }]
  interfaces := [
    { name := "scene",
      constructors := [
        { name := "create", returns := some { type := "handle:Scene" }, error := some "Status" }],
      methods := [{ name := "node_add" }] },
    { name := "scene_node", methods := [{ name := "remove" }, { name := "sink" }] }]

theorem symbolsDistinct_sceneApi :
    sceneApi.validate (some sceneSchema) = [] ∧
      sceneApi.operations.map (·.symbol sceneApi.name) = ["demo_scene_create",
        "demo_scene_destroy_scene", "demo_scene_node_add", "demo_scene_node_remove",
        "demo_scene_node_sink"] ∧
      SymbolsDistinct sceneApi := by
  have hvalid : sceneApi.validate (some sceneSchema) = [] := by decide +kernel
  have hapart : SymbolsApart sceneApi := by decide +kernel
  exact ⟨hvalid, by decide +kernel, (symbolsDistinct_iff hvalid).mpr hapart⟩

/-! ### Symbols that clash -/

/-- An interface that continues the name of another and meets its operation, and an
interface named like a service. -/
def clashingApi : Api where
  metadata := { name := "demo", version := "1.0.0", language := .rust }
  schemas := ["demo.fbs"]
  interfaces := [
    { name := "scene", methods := [{ name := "node_add" }] },
    { name := "scene_node", methods := [{ name := "add" }] },
    { name := "log", methods := [{ name := "sink" }] }]

/-- **A valid description whose symbols clash**, with each other and with a service. -/
theorem clashingApi_symbols :
    Api.ofDocument clashingApi.toJson = .ok clashingApi ∧
      clashingApi.validate (some Keyed.empty) = [] ∧
      ¬ (clashingApi.operations.map (·.symbol clashingApi.name)).Nodup ∧
      ∃ op ∈ clashingApi.operations, ∃ service ∈ Abi.services,
        op.symbol clashingApi.name = service.symbol clashingApi.name := by
  have hsymbols : clashingApi.operations.map (·.symbol clashingApi.name) =
      ["demo_scene_node_add", "demo_scene_node_add", "demo_log_sink"] := by
    decide +kernel
  refine ⟨ofDocument_eq_ok_iff.mpr (by decide +kernel), by decide +kernel, ?_, ?_⟩
  · rw [hsymbols]
    decide
  · have hmem : "demo_log_sink" ∈ clashingApi.operations.map (·.symbol clashingApi.name) := by
      rw [hsymbols]
      decide
    obtain ⟨op, hop, hsymbol⟩ := List.mem_map.mp hmem
    exact ⟨op, hop, _, List.mem_cons_self, hsymbol⟩

end Bindery
