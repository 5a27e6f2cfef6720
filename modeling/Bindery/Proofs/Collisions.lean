import Bindery.Proofs.Coverage
import Bindery.Proofs.Names.Operations
import Bindery.Proofs.Symbols

/-!
# Operations that share a symbol

Two pairs of names are joined to one symbol when one of them overlaps the other, whatever
texts the names are. In a description they are names in snake case, and then the part that the
name of the interface goes on with, and that the name of the operation begins with, is a name
in snake case as well: it stands at the beginning of one. The two operations are never of the
same interface, since no name continues itself.

* `overlap_iff_borrows` — an overlap of the names of a description is one that borrows a name;
* `symbol_eq_symbol_iff_borrows` — the operations of a valid description that share a symbol,
  and what the operations of one interface cannot do.
-/

namespace Bindery

/-! ### Borrowed names -/

/-- What stands in front of an underscore of a name in snake case is one itself. -/
theorem isSnakeIdentifier_of_joined {r n : String}
    (h : isSnakeIdentifier (r ++ "_" ++ n) = true) : isSnakeIdentifier r = true := by
  obtain ⟨c, cs, hjoined, hlower, hall⟩ := isSnakeIdentifier_iff.mp h
  rw [toList_joined] at hjoined
  cases hr : r.toList with
  | nil =>
    -- the name would begin with the underscore
    rw [hr, List.nil_append] at hjoined
    obtain ⟨rfl, -⟩ := List.cons.inj hjoined
    exact absurd hlower (by decide)
  | cons d ds =>
    rw [hr, List.cons_append] at hjoined
    obtain ⟨rfl, rfl⟩ := List.cons.inj hjoined
    exact isSnakeIdentifier_iff.mpr
      ⟨d, ds, hr, hlower, fun e he => hall e (List.mem_append_left _ he)⟩

/-- **The first operation borrows from the interface of the second**: that one is named like
its own and a name in snake case, with which the name of the operation begins. -/
def Borrows (op op' : Operation) : Prop :=
  ∃ r, isSnakeIdentifier r = true ∧
    op'.interface.name = op.interface.name ++ "_" ++ r ∧
    op.method.name = r ++ "_" ++ op'.method.name

theorem Borrows.overlap {op op' : Operation} (h : Borrows op op') :
    Overlap op.interface.name op.method.name op'.interface.name op'.method.name := by
  obtain ⟨r, -, hinterface, hname⟩ := h
  exact ⟨r, hinterface, hname⟩

/-- **An overlap of names in snake case borrows a name in snake case.** -/
theorem overlap_iff_borrows {op op' : Operation} (h : isSnakeIdentifier op.method.name = true) :
    Overlap op.interface.name op.method.name op'.interface.name op'.method.name ↔
      Borrows op op' := by
  refine ⟨?_, Borrows.overlap⟩
  rintro ⟨r, hinterface, hname⟩
  rw [hname] at h
  exact ⟨r, isSnakeIdentifier_of_joined h, hinterface, hname⟩

/-- The interface that is borrowed from goes on where the other one ends. -/
theorem Borrows.interface_ne {op op' : Operation} (h : Borrows op op') :
    op.interface ≠ op'.interface := by
  obtain ⟨r, -, hinterface, -⟩ := h
  intro heq
  have hlength := congrArg String.length (congrArg Interface.name heq)
  rw [hinterface, String.length_append, String.length_append] at hlength
  have hone : "_".length = 1 := rfl
  omega

/-! ### Symbols -/

/-- **When operations of a valid description share a symbol.** All its operations are distinct,
and two of them have the same symbol exactly when they belong to different interfaces and one
borrows from the interface of the other. Hence the symbols of one interface are distinct. -/
theorem symbol_eq_symbol_iff_borrows {doc : Json} {a : Api} {types : Schema}
    (described : Api.ofDocument doc = .ok a) (valid : a.validate (some types) = []) :
    a.operations.Nodup ∧
      (∀ op ∈ a.operations, ∀ op' ∈ a.operations, op ≠ op' →
        (op.symbol a.name = op'.symbol a.name ↔
          op.interface ≠ op'.interface ∧ (Borrows op op' ∨ Borrows op' op))) ∧
      ∀ i ∈ a.interfaces, (i.operations.map (·.symbol a.name)).Nodup := by
  have hconforms := Validate.conforms_of_validate valid
  have hsnake := snakeNamed_of_ofDocument described
  have hops : a.operations.Nodup := nodup_operations hconforms
  have hkeys := nodup_keys hconforms
  -- distinct operations have distinct keys, so that a shared symbol comes from an overlap
  have hshared : ∀ op ∈ a.operations, ∀ op' ∈ a.operations, op ≠ op' →
      (op.symbol a.name = op'.symbol a.name ↔ Borrows op op' ∨ Borrows op' op) := by
    intro op hop op' hop' hne
    have hkey : op.key ≠ op'.key := fun heq => hne (List.inj_on_of_nodup_map hkeys hop hop' heq)
    rw [symbol_eq_symbol_iff, or_iff_right hkey,
      overlap_iff_borrows (hsnake.of_mem_operations hop),
      overlap_iff_borrows (hsnake.of_mem_operations hop')]
  have hapart : ∀ {op op' : Operation}, Borrows op op' ∨ Borrows op' op →
      op.interface ≠ op'.interface := by
    rintro op op' (h | h)
    · exact h.interface_ne
    · exact h.interface_ne.symm
  refine ⟨hops, fun op hop op' hop' hne => ?_, fun i hi => ?_⟩
  · rw [hshared op hop op' hop' hne]
    exact ⟨fun h => ⟨hapart h, h⟩, And.right⟩
  · have hmem : ∀ op ∈ i.operations, op ∈ a.operations :=
      fun op hop => mem_operations_of_mem hi hop
    have hown := nodup_operations_of_mem hconforms hi
    refine (List.nodup_map_iff_inj_on hown).mpr fun op hop op' hop' heq => ?_
    by_contra hne
    refine hapart ((hshared op (hmem op hop) op' (hmem op' hop') hne).mp heq) ?_
    rw [interface_of_mem_operations hop, interface_of_mem_operations hop']

/-- The only type of the stage below. -/
def stageSchema : Schema := Keyed.empty.insert "Status" { kind := .enum }

/-- An interface with a constructor that borrows from another, and with a method that does. -/
def stageApi : Api where
  metadata := { name := "demo", version := "1.0.0", language := .rust }
  schemas := ["demo.fbs"]
  handles := [{ name := "Scene" }]
  interfaces := [
    { name := "stage",
      constructors := [
        { name := "create_set", returns := some { type := "handle:Scene" },
          error := some "Status" }],
      methods := [{ name := "light_dim" }, { name := "light_on" }] },
    { name := "stage_light", methods := [{ name := "dim" }] }]

theorem borrows_stageApi :
    Api.ofDocument stageApi.toJson = .ok stageApi ∧
      stageApi.validate (some stageSchema) = [] ∧
      stageApi.operations.map (·.symbol stageApi.name) = ["demo_stage_create_set",
        "demo_stage_destroy_scene", "demo_stage_light_dim", "demo_stage_light_on",
        "demo_stage_light_dim"] ∧
      (∃ op ∈ stageApi.operations, ∃ op' ∈ stageApi.operations,
        op.interface ≠ op'.interface ∧ (Borrows op op' ∨ Borrows op' op)) ∧
      ∀ i ∈ stageApi.interfaces, (i.operations.map (·.symbol stageApi.name)).Nodup := by
  have described : Api.ofDocument stageApi.toJson = .ok stageApi :=
    ofDocument_eq_ok_iff.mpr (by decide +kernel)
  have valid : stageApi.validate (some stageSchema) = [] := by decide +kernel
  obtain ⟨-, hshared, hown⟩ := symbol_eq_symbol_iff_borrows described valid
  refine ⟨described, valid, by decide +kernel, ?_, hown⟩
  have hclash : ∃ op ∈ stageApi.operations, ∃ op' ∈ stageApi.operations,
      op ≠ op' ∧ op.symbol stageApi.name = op'.symbol stageApi.name := by
    decide +kernel
  -- One pair with a shared symbol is enough, and the theorem says how it came about.
  obtain ⟨op, hop, op', hop', hne, hsymbol⟩ := hclash
  exact ⟨op, hop, op', hop', (hshared op hop op' hop' hne).mp hsymbol⟩

end Bindery
