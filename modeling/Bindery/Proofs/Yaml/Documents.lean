import Bindery.Proofs.RoundTrip
import Bindery.Yaml.Value

/-!
# Trees that are read

The entries of an object are listed in the order of their keys. The type of trees does not say so,
and a tree with a key that comes twice could be built by hand; but no text is read as one. Every
tree that is read is made of scalars, of lists, and of objects that `Json.ofEntries` brings into
order, in every place and however often references are followed (`proper_of_load`).

What a computation gives is followed along its steps: `Follow.Gives` says that every result has a
property, and there is one law for each way of putting steps together.
-/

namespace Bindery

namespace Json

/-- **A tree as it can be read.** The entries of an object are in the order of their keys, so that
each key is there once. -/
inductive Proper : Json → Prop
  | null : Proper null
  | bool (b : Bool) : Proper (bool b)
  | int (n : Int) : Proper (int n)
  | float (x : Decimal) : Proper (float x)
  | str (s : String) : Proper (str s)
  | arr {items : List Json} (proper : ∀ v ∈ items, Proper v) : Proper (arr items)
  | obj {entries : List (String × Json)} (ascending : Ascending entries)
    (proper : ∀ e ∈ entries, Proper e.2) : Proper (obj entries)

theorem ascending_foldl_insertEntry (entries : List (String × Json)) {acc : List (String × Json)}
    (h : Ascending acc) :
    Ascending (entries.foldl (fun acc e => insertEntry e.1 e.2 acc) acc) := by
  induction entries generalizing acc with
  | nil => exact h
  | cons e rest ih => exact ih (h.insertEntry e.1 e.2)

/-- Entries in any order make an object whose entries are in order. -/
theorem Proper.ofEntries {entries : List (String × Json)} (h : ∀ e ∈ entries, Proper e.2) :
    Proper (ofEntries entries) := by
  refine .obj (ascending_foldl_insertEntry entries List.Pairwise.nil) ?_
  intro e he
  rcases mem_foldl_insertEntry he with he | he
  · cases he
  · exact h e he

end Json

namespace Yaml

open Json

/-! ### Scalars -/

theorem proper_fractionJson (x : Option Decimal) : (fractionJson x).Proper := by
  cases x with
  | none => exact .null
  | some d => exact .float d

theorem proper_of_plainValue {s : String} {j : Json} (h : plainValue s = .ok j) : j.Proper := by
  unfold plainValue at h
  -- in the order in which readings are tried: null, truth values, integers, fractions, texts
  split at h
  · obtain rfl := pure_eq_ok_iff.mp h
    exact .null
  split at h
  · obtain rfl := pure_eq_ok_iff.mp h
    exact .bool _
  obtain ⟨_, -, h⟩ := bind_eq_ok_iff.mp h
  split at h
  · obtain rfl := pure_eq_ok_iff.mp h
    exact .int _
  dsimp only at h
  split at h
  · split at h
    · obtain rfl := pure_eq_ok_iff.mp h
      exact proper_fractionJson _
    · obtain rfl := pure_eq_ok_iff.mp h
      exact .str s
  · obtain rfl := pure_eq_ok_iff.mp h
    exact .str s

theorem proper_of_scalarValue {s : String} {style : Style} {tag : Option TagAddress} {j : Json}
    (h : scalarValue s style tag = .ok j) : j.Proper := by
  unfold scalarValue at h
  split at h
  · split at h
    · exact proper_of_plainValue h
    · obtain rfl := pure_eq_ok_iff.mp h
      exact .str s
  split at h
  · cases h
  split at h
  · -- a truth value
    split at h
    · obtain rfl := pure_eq_ok_iff.mp h
      exact .bool _
    · cases h
  split at h
  · -- an integer
    obtain ⟨_, -, h⟩ := bind_eq_ok_iff.mp h
    split at h
    · obtain rfl := pure_eq_ok_iff.mp h
      exact .int _
    · cases h
  split at h
  · -- a decimal fraction
    split at h
    · obtain rfl := pure_eq_ok_iff.mp h
      exact proper_fractionJson _
    · cases h
  split at h
  · -- a null
    split at h
    · obtain rfl := pure_eq_ok_iff.mp h
      exact .null
    · cases h
  split at h
  · exact proper_of_plainValue h
  · obtain rfl := pure_eq_ok_iff.mp h
    exact .str s

/-! ### Nodes -/

section Follow

variable {α β : Type} {P : α → Prop} {Q : β → Prop}

/-- **Whatever is followed to has a property.** -/
def Follow.Gives (P : α → Prop) (x : Follow α) : Prop :=
  ∀ count r, x.run count = .ok r → P r.1

theorem Follow.gives_pure {a : α} (h : P a) : Follow.Gives P (pure a) := by
  rintro count r ⟨⟩
  exact h

theorem Follow.gives_throw (problem : Problem) : Follow.Gives P (throw problem) := nofun

theorem Follow.gives_lift {x : Except Problem α} (h : ∀ a, x = .ok a → P a) :
    Follow.Gives P (liftM x) := by
  intro count r hr
  have hlift : x >>= (fun a => pure (a, count)) = .ok r := hr
  obtain ⟨a, ha, hpure⟩ := bind_eq_ok_iff.mp hlift
  obtain rfl := pure_eq_ok_iff.mp hpure
  exact h a ha

theorem Follow.Gives.bind {x : Follow α} {f : α → Follow β} (hx : Follow.Gives P x)
    (hf : ∀ a, P a → Follow.Gives Q (f a)) : Follow.Gives Q (x >>= f) := by
  intro count r hr
  rw [StateT.run_bind] at hr
  obtain ⟨p, hp, hnext⟩ := bind_eq_ok_iff.mp hr
  exact hf p.1 (hx count p hp) p.2 r hnext

/-- A step whose result does not matter. -/
theorem Follow.gives_bind {x : Follow α} {f : α → Follow β} (hf : ∀ a, Follow.Gives Q (f a)) :
    Follow.Gives Q (x >>= f) :=
  Follow.Gives.bind (P := fun _ => True) (fun _ _ _ => trivial) fun a _ => hf a

theorem Follow.gives_mapM {f : β → Follow α} (hf : ∀ b, Follow.Gives P (f b)) (bs : List β) :
    Follow.Gives (fun as => ∀ a ∈ as, P a) (bs.mapM f) := by
  induction bs with
  | nil =>
    rw [List.mapM_nil]
    exact gives_pure (List.forall_mem_nil P)
  | cons b rest ih =>
    rw [List.mapM_cons]
    refine (hf b).bind fun a ha => ih.bind fun as has => gives_pure ?_
    exact List.forall_mem_cons.mpr ⟨ha, has⟩

end Follow

/-- **The tree of a node is one that can be read**, however deep it is. -/
theorem gives_value (d : Document) (limit depth : Nat) (n : Node) :
    Follow.Gives Proper (d.value limit depth n) := by
  -- the induction is on the levels that are left, as the reader's own recursion is
  induction depth generalizing n with
  | zero =>
    rw [Document.value]
    refine Follow.gives_bind fun node => ?_
    split
    · exact Follow.gives_lift fun _ => proper_of_scalarValue
    · exact Follow.gives_throw _
    · exact Follow.gives_bind fun _ => Follow.gives_throw _
    · exact Follow.gives_bind fun _ => Follow.gives_throw _
  | succ depth ih =>
    rw [Document.value]
    refine Follow.gives_bind fun node => ?_
    split
    · exact Follow.gives_lift fun _ => proper_of_scalarValue
    · exact Follow.gives_throw _
    · refine Follow.gives_bind fun _ => (Follow.gives_mapM ih _).bind fun items hitems => ?_
      exact Follow.gives_pure (.arr hitems)
    · refine Follow.gives_bind fun _ => ?_
      have hentry : ∀ e : Node × Node, Follow.Gives (fun entry : String × Json => entry.2.Proper)
          (do
            let key ← d.key limit e.1
            let value ← d.value limit depth e.2
            return (key, value)) := by
        intro e
        refine Follow.gives_bind fun key => (ih e.2).bind fun value hvalue => ?_
        exact Follow.gives_pure hvalue
      refine (Follow.gives_mapM hentry _).bind fun entries hentries => ?_
      exact Follow.gives_pure (.ofEntries hentries)

/-- **Every text is read as a tree with each key of an object once.** -/
theorem proper_of_load {text : String} {doc : Json} (h : load text = .ok doc) : doc.Proper := by
  rw [load] at h
  obtain ⟨d, -, h⟩ := bind_eq_ok_iff.mp h
  split at h
  · obtain rfl := pure_eq_ok_iff.mp h
    exact .null
  · obtain ⟨r, hr, rfl⟩ := map_eq_ok_iff.mp h
    exact gives_value d _ _ _ 0 r hr

end Yaml

end Bindery
