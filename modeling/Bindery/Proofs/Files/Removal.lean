import Bindery.Output
import Bindery.Proofs.Files.Lookup

/-!
# What cleaning does to a file system

Removing a directory clears it (`FileSystem.Cleared`): whatever lies below is gone, and so is the
directory itself, unless the path by which it is removed ends in a dot. When that does not come in
between, all is taken away that lies at its location or below, and nothing else
(`FileSystem.Removed`). A path that does not lead up only comes by beginnings of its target, so it
goes on existing unless its target is taken away (`Removed.pathExists_iff`).

A directory that is not there is no mistake when it is to be cleaned. Both cases come to one
statement, `pathExists_cleanOutput_iff`.
-/

namespace Bindery

namespace FileSystem

variable {fs fs' : FileSystem} {l : Location}

/-- **All that lies at a location and below is removed.** Only the root itself stays. -/
structure Removed (l : Location) (fs fs' : FileSystem) : Prop where
  home : fs'.home = fs.home
  gone : ∀ k, l <+: k → k ≠ [] → fs'.node? k = none
  kept : ∀ k, ¬ l <+: k → fs'.node? k = fs.node? k

namespace Removed

/-- What is still there was there before. -/
theorem node?_of_some (h : Removed l fs fs') {k : Location} {n : FileNode}
    (hk : fs'.node? k = some n) : fs.node? k = some n := by
  by_cases hbelow : l <+: k
  · by_cases hroot : k = []
    · subst hroot
      exact hk
    · rw [h.gone k hbelow hroot] at hk
      cases hk
  · rwa [h.kept k hbelow] at hk

/-- A tree without a branch is a tree. -/
theorem isTree (h : Removed l fs fs') (tree : fs.IsTree) : fs'.IsTree := by
  intro k k' habove hnode
  obtain ⟨n, hn⟩ := Option.ne_none_iff_exists'.mp hnode
  have hdir : fs.node? k = some .directory := by
    refine tree k k' habove ?_
    rw [h.node?_of_some hn]
    exact nofun
  by_cases hbelow : l <+: k
  · -- only the root lies above something that is left
    have hne : k' ≠ [] := by
      rintro rfl
      exact habove.2 (List.prefix_nil.mp habove.1)
    rw [h.gone k' (hbelow.trans habove.1) hne] at hn
    cases hn
  · rw [h.kept k hbelow, hdir]

/-- **A path exists as before, unless its end is removed.** -/
theorem pathExists_iff (h : Removed l fs fs') {path : String} (hpath : ".." ∉ Path.names path)
    (hend : fs.target path ≠ []) :
    fs'.pathExists path = true ↔ fs.pathExists path = true ∧ ¬ l <+: fs.target path := by
  rw [FileSystem.pathExists_iff, FileSystem.pathExists_iff]
  constructor
  · rintro ⟨n, hn⟩
    obtain ⟨hlocate, hnode⟩ := find_eq_ok_iff.mp hn
    rw [target_congr h.home] at hlocate hnode
    refine ⟨⟨n, find_eq_ok_iff.mpr ⟨?_, h.node?_of_some hnode⟩⟩, fun hbelow => ?_⟩
    · exact locate_mono h.home.symm (fun _ => h.node?_of_some) hlocate
    · rw [h.gone _ hbelow hend] at hnode
      cases hnode
  · rintro ⟨⟨n, hn⟩, hbelow⟩
    refine ⟨n, ?_⟩
    rw [find_congr h.home fun k hpasses => h.kept k fun hk => ?_, hn]
    -- whatever the path comes by is a beginning of its target
    rcases passes_iff.mp hpasses with hthrough | rfl
    · exact hbelow (hk.trans (hthrough.above hpath).1)
    · exact hbelow hk

end Removed

/-! ### Removing a directory -/

/-- Entries that are picked by their key are found by their key. -/
theorem lookupEntry_filter {α : Type} {p : Location → Bool} {k : Location}
    {entries : List (Location × α)} :
    lookupEntry k (entries.filter fun e => p e.1) =
      if p k then lookupEntry k entries else none := by
  induction entries with
  | nil => rw [List.filter_nil, lookupEntry, List.find?_nil, Option.map_none, ite_self]
  | cons e rest ih =>
    obtain ⟨k₁, v⟩ := e
    rw [List.filter_cons, lookupEntry_cons]
    -- Entries with another key can go or stay; the lookup passes them by.
    by_cases heq : k₁ = k
    · subst heq
      by_cases hp : p k₁ = true
      · rw [if_pos hp, if_pos hp, lookupEntry_cons, if_pos rfl, if_pos rfl]
      · rw [if_neg hp, if_neg hp, ih, if_neg hp]
    · rw [if_neg heq]
      split
      · rw [lookupEntry_cons, if_neg heq, ih]
      · exact ih

/-- **A directory is cleared by a path that leads to it**: all that lies below is gone, and the
directory too, unless the path ends in a dot. -/
structure Cleared (path : String) (fs fs' : FileSystem) : Prop where
  home : fs'.home = fs.home
  below : ∀ k, fs.target path <+: k → k ≠ fs.target path → fs'.node? k = none
  /-- The root is there in any case. -/
  itself : fs.target path ≠ [] →
    fs'.node? (fs.target path) = if Path.endsInDot path then some .directory else none
  kept : ∀ k, ¬ fs.target path <+: k → fs'.node? k = fs.node? k

/-- Removing a directory clears it, and a directory that stays is reported. -/
theorem removeDirectory_of_find {path : String} (h : fs.find path = .ok .directory) :
    ∃ fs', fs.removeDirectory path =
        .ok (fs', if Path.endsInDot path then some .invalidArgument else none) ∧
      Cleared path fs fs' := by
  obtain ⟨hlocate, hnode⟩ := find_eq_ok_iff.mp h
  refine ⟨{ fs with entries := fs.entries.filter fun e =>
    !((fs.target path).isPrefixOf e.1 && !(Path.endsInDot path && e.1 = fs.target path)) }, ?_, ?_⟩
  · unfold removeDirectory
    rw [hlocate]
    dsimp only [bind, Except.bind]
    rw [hnode]
    rfl
  -- Looked up after the removal is what the filter keeps.
  · have hlookup : ∀ k, lookupEntry k (fs.entries.filter fun e =>
        !((fs.target path).isPrefixOf e.1 && !(Path.endsInDot path && e.1 = fs.target path))) =
          if !((fs.target path).isPrefixOf k && !(Path.endsInDot path && k = fs.target path)) then
            lookupEntry k fs.entries else none :=
      fun k => lookupEntry_filter (p := fun k =>
        !((fs.target path).isPrefixOf k && !(Path.endsInDot path && k = fs.target path)))
    refine ⟨rfl, fun k hbelow hself => ?_, fun hroot => ?_, fun k hbeside => ?_⟩
    · have hroot : k ≠ [] := by
        rintro rfl
        exact hself (List.prefix_nil.mp hbelow).symm
      rw [node?, if_neg hroot, hlookup, List.isPrefixOf_iff_prefix.mpr hbelow,
        decide_eq_false hself, Bool.and_false]
      rfl
    · rw [node?, if_neg hroot] at hnode ⊢
      rw [hlookup, List.isPrefixOf_iff_prefix.mpr List.prefix_rfl, hnode]
      cases Path.endsInDot path with
      | false => simp
      | true => simp
    · have hprefix : (fs.target path).isPrefixOf k = false := by
        rwa [Bool.eq_false_iff, ne_eq, List.isPrefixOf_iff_prefix]
      rw [node?, node?, hlookup, hprefix]
      rfl

theorem removeDirectory_eq_ok {path : String} (h : fs.removeDirectory path = .ok (fs', none)) :
    fs.find path = .ok .directory ∧ Removed (fs.target path) fs fs' := by
  have hfind : fs.find path = .ok .directory := by
    obtain ⟨l, hl, h⟩ := bind_eq_ok_iff.mp h
    obtain ⟨-, -, rfl⟩ := locate_eq_ok hl
    refine find_eq_ok_iff.mpr ⟨hl, ?_⟩
    cases hnode : fs.node? (fs.target path) with
    | none =>
      rw [hnode] at h
      cases h
    | some n =>
      rw [hnode] at h
      cases n with
      | file data => cases h
      | directory => rfl
  obtain ⟨fs₁, hremove, hcleared⟩ := removeDirectory_of_find hfind
  rw [hremove] at h
  obtain ⟨rfl, hdot⟩ := Prod.mk.inj (Except.ok.inj h)
  -- a path that ends in a dot would leave the directory there and report that
  have hdot : Path.endsInDot path = false := by
    cases hdot' : Path.endsInDot path with
    | false => rfl
    | true =>
      rw [hdot'] at hdot
      cases hdot
  refine ⟨hfind, hcleared.home, fun k hbelow hroot => ?_, hcleared.kept⟩
  by_cases hself : k = fs.target path
  · rw [hself] at hroot ⊢
    rw [hcleared.itself hroot, hdot]
    rfl
  · exact hcleared.below k hbelow hself

/-- Where nothing is removed, nothing was found. -/
theorem find_of_removeDirectory_eq_notFound {path : String}
    (h : fs.removeDirectory path = .error .notFound) : fs.pathExists path = false := by
  rw [Bool.eq_false_iff]
  intro hexists
  obtain ⟨n, hn⟩ := pathExists_iff.mp hexists
  obtain ⟨hl, hnode⟩ := find_eq_ok_iff.mp hn
  unfold removeDirectory at h
  rw [hl] at h
  dsimp only [bind, Except.bind] at h
  rw [hnode] at h
  -- Neither a file nor a directory that is found makes the removal say that nothing is there.
  cases n with
  | file data => cases h
  | directory => cases h

end FileSystem

open FileSystem

/-- **Cleaning that ends well** has removed the directory, or there was none. -/
theorem cleanOutput_eq_none {dir : String} {fs fs' : FileSystem}
    (h : cleanOutput dir fs = (fs', none)) :
    (fs.pathExists dir = true ∧ Removed (fs.target dir) fs fs') ∨
      (fs.pathExists dir = false ∧ fs' = fs) := by
  unfold cleanOutput at h
  split at h
  next fs₁ error hremove =>
    obtain ⟨rfl, herror⟩ := Prod.mk.inj h
    rw [Option.map_eq_none_iff] at herror
    subst herror
    obtain ⟨hfind, hremoved⟩ := removeDirectory_eq_ok hremove
    exact .inl ⟨FileSystem.pathExists_iff.mpr ⟨_, hfind⟩, hremoved⟩
  next hremove =>
    exact .inr ⟨find_of_removeDirectory_eq_notFound hremove, (Prod.mk.inj h).1.symm⟩
  next => cases (Prod.mk.inj h).2

end Bindery
