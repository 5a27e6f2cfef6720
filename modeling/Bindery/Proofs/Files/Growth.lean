import Bindery.Output
import Bindery.Proofs.Files.Lookup

/-!
# What writing does to a file system

Making directories and writing files come down to two steps: a directory is put where nothing lies,
or a file is put where no directory lies. `FileSystem.Grows dirs files` is a run of such steps, with
the directories at locations in `dirs` and the files at locations in `files`. All that is said about
writing is said about such runs:

* `Grows.node_cases` — what lies at a location after a run;
* `Grows.locate`, `Grows.pathExists` — what was found before is found afterwards;
* `Grows.put_eq_self` — what was there and is not written is not moved either.

Each operation is such a run, and its locations are known from the path:

* `makeRoomFor_grows` — the directories that are made for a file are those that its path leads
  through;
* `write_eq_ok` — a file is written at the target of its path.
-/

namespace Bindery

/-! ### Entries -/

section Entries

variable {α : Type} {k k' : Location} {v v' : α} {entries : List (Location × α)}

theorem insertEntry_insertEntry_self :
    insertEntry k v (insertEntry k v entries) = insertEntry k v entries := by
  induction entries with
  | nil => simp [insertEntry]
  | cons e rest ih =>
    obtain ⟨k₁, v₁⟩ := e
    by_cases heq : k = k₁
    · simp [insertEntry, heq]
    · by_cases hlt : k < k₁
      · simp [insertEntry, heq, hlt]
      · simp [insertEntry, heq, hlt, ih]

/-- An entry that insertion leaves alone is at the place where insertion looks for it, and it stays
at that place when another key is inserted. -/
theorem insertEntry_eq_self_of_ne (hne : k ≠ k') (h : insertEntry k v entries = entries) :
    insertEntry k v (insertEntry k' v' entries) = insertEntry k' v' entries := by
  induction entries with
  | nil => cases h
  | cons e rest ih =>
    obtain ⟨k₁, v₁⟩ := e
    -- The key that changes nothing is at the head, or the other key goes before, onto or behind
    -- the head.
    by_cases heq : k = k₁
    · subst heq
      rw [insertEntry, if_pos rfl, List.cons.injEq] at h
      by_cases hlt : k' < k
      · simp [insertEntry, hne, Ne.symm hne, hlt, lt_asymm hlt, h]
      · simp [insertEntry, Ne.symm hne, hlt, h]
    · have hnlt : ¬ k < k₁ := by
        intro hlt
        rw [insertEntry, if_neg heq, if_pos hlt, List.cons.injEq, Prod.mk.injEq] at h
        exact heq h.1.1
      have hrest : insertEntry k v rest = rest := by
        rw [insertEntry, if_neg heq, if_neg hnlt, List.cons.injEq] at h
        exact h.2
      by_cases heq' : k' = k₁
      · subst heq'
        simp [insertEntry, heq, hnlt, hrest]
      · by_cases hlt : k' < k₁
        · -- a key between would stand between the two
          have hnlt' : ¬ k < k' := fun hlt' => hnlt (lt_trans hlt' hlt)
          simp [insertEntry, hne, hnlt', heq, hnlt, heq', hlt, hrest]
        · simp [insertEntry, heq, hnlt, heq', hlt, ih hrest]

end Entries

namespace FileSystem

variable {fs fs' fs'' : FileSystem} {l l' : Location} {n n' : FileNode}

/-! ### Putting something at a location -/

@[simp] theorem home_put : (fs.put l n).home = fs.home := rfl

theorem node?_put (hl : l ≠ []) :
    (fs.put l n).node? l' = if l' = l then some n else fs.node? l' := by
  rw [node?, node?, put]
  by_cases hroot : l' = []
  · rw [if_pos hroot, if_pos hroot, if_neg fun h => hl (h.symm.trans hroot)]
  · rw [if_neg hroot, if_neg hroot, lookupEntry_insertEntry]
    by_cases heq : l' = l
    · rw [if_pos heq, if_pos heq.symm]
    · rw [if_neg heq, if_neg (Ne.symm heq)]

theorem put_put_self : (fs.put l n).put l n = fs.put l n := by
  rw [put, put, insertEntry_insertEntry_self]

theorem put_eq_self_of_ne (hne : l ≠ l') (h : fs.put l n = fs) :
    (fs.put l' n').put l n = fs.put l' n' := by
  have hentries : insertEntry l n fs.entries = fs.entries := congrArg FileSystem.entries h
  rw [put, put, insertEntry_eq_self_of_ne hne hentries]

/-! ### Growth -/

/-- **A run of writing**: directories are made where nothing lies, files are written where no
directory lies. -/
inductive Grows (dirs files : Set Location) : FileSystem → FileSystem → Prop where
  | refl (fs : FileSystem) : Grows dirs files fs fs
  | make {fs fs' : FileSystem} {l : Location} : Grows dirs files fs fs' → l ∈ dirs →
      fs'.node? l = none → Grows dirs files fs (fs'.put l .directory)
  | write {fs fs' : FileSystem} {l : Location} (data : ByteArray) : Grows dirs files fs fs' →
      l ∈ files → fs'.node? l ≠ some .directory → Grows dirs files fs (fs'.put l (.file data))

namespace Grows

variable {dirs dirs' files files' : Set Location}

theorem home (h : Grows dirs files fs fs') : fs'.home = fs.home := by
  induction h with
  | refl => rfl
  | make _ _ _ ih => exact ih
  | write _ _ _ _ ih => exact ih

theorem trans (h : Grows dirs files fs fs') (h' : Grows dirs files fs' fs'') :
    Grows dirs files fs fs'' := by
  induction h' with
  | refl => exact h
  | make _ hl hnode ih => exact ih.make hl hnode
  | write data _ hl hnode ih => exact ih.write data hl hnode

theorem mono (hdirs : dirs ⊆ dirs') (hfiles : files ⊆ files') (h : Grows dirs files fs fs') :
    Grows dirs' files' fs fs' := by
  induction h with
  | refl => exact .refl _
  | make _ hl hnode ih => exact ih.make (hdirs hl) hnode
  | write data _ hl hnode ih => exact ih.write data (hfiles hl) hnode

theorem ne_nil_of_node?_eq_none (h : fs.node? l = none) : l ≠ [] := by
  rintro rfl
  cases h

theorem ne_nil_of_node?_ne_directory (h : fs.node? l ≠ some .directory) : l ≠ [] := by
  rintro rfl
  exact h rfl

/-- **What lies at a location after a run**: what lay there before, or a new directory, or a file
that was written. -/
theorem node_cases (h : Grows dirs files fs fs') (l : Location) :
    fs'.node? l = fs.node? l ∨
      (l ∈ dirs ∧ fs.node? l = none ∧ fs'.node? l = some .directory) ∨
      (l ∈ files ∧ fs.node? l ≠ some .directory ∧ ∃ data, fs'.node? l = some (.file data)) := by
  -- by the steps, of which the last one decides
  induction h with
  | refl => exact .inl rfl
  | make _ hl hnode ih =>
    rw [node?_put (ne_nil_of_node?_eq_none hnode)]
    split
    next heq =>
      subst heq
      -- nothing was there, so nothing has been put there by the steps before
      obtain hsame | ⟨-, -, hdir⟩ | ⟨-, -, data, hfile⟩ := ih
      · exact .inr (.inl ⟨hl, hsame ▸ hnode, rfl⟩)
      · rw [hdir] at hnode
        cases hnode
      · rw [hfile] at hnode
        cases hnode
    next => exact ih
  | write data _ hl hnode ih =>
    rw [node?_put (ne_nil_of_node?_ne_directory hnode)]
    split
    next heq =>
      subst heq
      refine .inr (.inr ⟨hl, ?_, data, rfl⟩)
      -- a directory would still be there
      obtain hsame | ⟨-, -, hdir⟩ | ⟨-, hbefore, -⟩ := ih
      · exact hsame ▸ hnode
      · exact absurd hdir hnode
      · exact hbefore
    next => exact ih

/-- A file that is found where none is written was there before. -/
theorem node?_of_file (h : Grows dirs files fs fs') {l : Location} (hl : l ∉ files)
    {data : ByteArray} (hfile : fs'.node? l = some (.file data)) :
    fs.node? l = some (.file data) := by
  obtain hsame | ⟨-, -, hdir⟩ | ⟨hmem, -⟩ := h.node_cases l
  · exact hsame ▸ hfile
  · rw [hdir] at hfile
    cases hfile
  · exact absurd hmem hl

/-- Directories stay. -/
theorem directory (h : Grows dirs files fs fs') (hl : fs.node? l = some .directory) :
    fs'.node? l = some .directory := by
  obtain hsame | ⟨-, hnone, -⟩ | ⟨-, hne, -⟩ := h.node_cases l
  · exact hsame.trans hl
  · rw [hl] at hnone
    cases hnone
  · exact absurd hl hne

/-- What is there and is not written stays as it is. -/
theorem node?_of_not_mem (h : Grows dirs files fs fs') (hl : fs.node? l = some n)
    (hfiles : l ∉ files) : fs'.node? l = some n := by
  obtain hsame | ⟨-, hnone, -⟩ | ⟨hmem, -⟩ := h.node_cases l
  · exact hsame.trans hl
  · rw [hl] at hnone
    cases hnone
  · exact absurd hmem hfiles

theorem target (h : Grows dirs files fs fs') (path : String) : fs'.target path = fs.target path :=
  target_congr h.home path

theorem locate (h : Grows dirs files fs fs') {path : String} (hl : fs.locate path = .ok l) :
    fs'.locate path = .ok l :=
  locate_mono h.home (fun _ => h.directory) hl

/-- **What exists goes on existing.** -/
theorem pathExists (h : Grows dirs files fs fs') {path : String}
    (hpath : fs.pathExists path = true) : fs'.pathExists path = true := by
  obtain ⟨n, hn⟩ := pathExists_iff.mp hpath
  obtain ⟨hl, hnode⟩ := find_eq_ok_iff.mp hn
  have hl' := h.locate hl
  rw [← h.target] at hl' hnode
  obtain hsame | ⟨-, -, hdir⟩ | ⟨-, -, data, hfile⟩ := h.node_cases (fs'.target path)
  · exact pathExists_iff.mpr ⟨n, find_eq_ok_iff.mpr ⟨hl', hsame.trans hnode⟩⟩
  · exact pathExists_iff.mpr ⟨_, find_eq_ok_iff.mpr ⟨hl', hdir⟩⟩
  · exact pathExists_iff.mpr ⟨_, find_eq_ok_iff.mpr ⟨hl', hfile⟩⟩

/-- What is found at a location that is not written is found again. -/
theorem find_of_not_mem (h : Grows dirs files fs fs') {path : String} (hn : fs.find path = .ok n)
    (hfiles : fs.target path ∉ files) : fs'.find path = .ok n := by
  obtain ⟨hl, hnode⟩ := find_eq_ok_iff.mp hn
  rw [find_eq_ok_iff, h.target]
  exact ⟨h.locate hl, h.node?_of_not_mem hnode hfiles⟩

/-- Something that is in its place stays in its place. -/
theorem put_eq_self (h : Grows dirs files fs fs') (hnode : fs.node? l = some n)
    (hput : fs.put l n = fs) (hfiles : l ∉ files) : fs'.put l n = fs' := by
  -- Making a directory or writing another file leaves what is put where it is.
  induction h with
  | refl => exact hput
  | make hgrows hl hnone ih =>
    refine put_eq_self_of_ne ?_ ih
    rintro rfl
    rw [hgrows.node?_of_not_mem hnode hfiles] at hnone
    cases hnone
  | write data _ hl _ ih =>
    refine put_eq_self_of_ne ?_ ih
    rintro rfl
    exact hfiles hl

end Grows

/-- **How a path comes to exist.** A run that does not write the end of a path, and after which the
path exists though it did not before, has made a directory that the path passes: its end, or one
that the path leaves again by leading up. -/
theorem exists_made_of_appears {dirs files : Set Location} {path : String} (tree : fs.IsTree)
    (h : Grows dirs files fs fs') (hfiles : fs.target path ∉ files)
    (hbefore : fs.pathExists path = false) (hafter : fs'.pathExists path = true) :
    ∃ l ∈ dirs, fs.Passes path l ∧ ¬ Above l (fs.target path) := by
  by_contra hnone
  push Not at hnone
  obtain ⟨n, hn⟩ := pathExists_iff.mp hafter
  obtain ⟨hl, hnode⟩ := find_eq_ok_iff.mp hn
  obtain ⟨-, hopen, -⟩ := locate_eq_ok hl
  rw [h.target] at hnode
  -- what lies at the end has been there before
  have hend : fs'.node? (fs.target path) = fs.node? (fs.target path) := by
    obtain hsame | ⟨hdirs, -⟩ | ⟨hmem, -⟩ := h.node_cases (fs.target path)
    · exact hsame
    · have habove := hnone _ hdirs (passes_iff.mpr (.inr rfl))
      exact absurd rfl habove.2
    · exact absurd hmem hfiles
  have hsome : fs.node? (fs.target path) ≠ none := by
    rw [← hend, hnode]
    exact nofun
  -- so has all that the path comes by
  have hsame : ∀ l, fs.Passes path l → fs'.node? l = fs.node? l := by
    intro l hpasses
    rcases passes_iff.mp hpasses with hthrough | rfl
    · obtain hsame | ⟨hdirs, hnew, -⟩ | ⟨-, -, data, hfile⟩ := h.node_cases l
      · exact hsame
      · rw [tree l _ (hnone l hdirs hpasses) hsome] at hnew
        cases hnew
      · have hdir := hopen.directory ((leadsThrough_congr h.home path l).mpr hthrough)
        rw [hfile] at hdir
        cases hdir
    · exact hend
  have hfind := find_congr h.home hsame
  rw [hn] at hfind
  rw [pathExists_iff.mpr ⟨n, hfind.symm⟩] at hbefore
  cases hbefore

/-! ### Operations -/

theorem makeDirectory_eq_ok {path : String} (h : fs.makeDirectory path = .ok fs') :
    fs.node? (fs.target path) = none ∧ fs' = fs.put (fs.target path) .directory := by
  obtain ⟨⟨⟩, hcheck, h⟩ := bind_eq_ok_iff.mp h
  obtain ⟨l, hl, h⟩ := bind_eq_ok_iff.mp h
  obtain ⟨-, -, rfl⟩ := locate_eq_ok hl
  have hne : path ≠ "" := by
    rintro rfl
    cases hcheck
  -- Slashes at the end do not change where a path leads.
  have htarget : fs.target (Path.withoutSlashes path) = fs.target path := by
    rw [target, target, Path.names_withoutSlashes, start, start,
      Path.isAbsolute_of_beginning (Path.beginning_withoutSlashes path)
        (Path.withoutSlashes_ne_empty hne)]
  rw [htarget] at h
  cases hnode : fs.node? (fs.target path) with
  | none =>
    rw [hnode] at h
    exact ⟨rfl, (Except.ok.inj h).symm⟩
  | some n =>
    rw [hnode] at h
    cases h

theorem ensureDirectory_grows {path : String} (h : fs.ensureDirectory path = .ok fs') :
    Grows {fs.target path} ∅ fs fs' := by
  unfold ensureDirectory at h
  split at h
  next =>
    split at h
    · obtain rfl := Except.ok.inj h
      exact .refl fs
    · cases h
  next =>
    obtain ⟨hnode, rfl⟩ := makeDirectory_eq_ok h
    exact (Grows.refl fs).make rfl hnode

/-- Directories are made at the ends of the given paths. -/
theorem makeAlong_grows (fs : FileSystem) (paths : List String) :
    Grows {l | ∃ p ∈ paths, l = fs.target p} ∅ fs (fs.makeAlong paths).1 := by
  induction paths with
  | nil => exact .refl fs
  | cons path above ih =>
    -- this directory adds its own location, whatever was made before it
    have hensure : ∀ fs₁ fs₂ : FileSystem, fs₁.home = fs.home → fs₁.ensureDirectory path = .ok fs₂ →
        Grows {l | ∃ p ∈ path :: above, l = fs.target p} ∅ fs₁ fs₂ := by
      intro fs₁ fs₂ hhome h
      refine (ensureDirectory_grows h).mono ?_ (Set.empty_subset _)
      rintro l rfl
      exact ⟨path, List.mem_cons_self, target_congr hhome path⟩
    have habove : Grows {l | ∃ p ∈ path :: above, l = fs.target p} ∅ fs (fs.makeAlong above).1 := by
      refine ih.mono ?_ (Set.empty_subset _)
      rintro l ⟨p, hp, rfl⟩
      exact ⟨p, List.mem_cons_of_mem _ hp, rfl⟩
    rw [makeAlong]
    cases hfirst : fs.ensureDirectory path with
    | ok fs₁ => exact hensure fs fs₁ rfl hfirst
    | error e =>
      -- those above it are made only if it has no parent yet
      cases e with
      | notFound =>
        cases hrest : fs.makeAlong above with
        | mk fs₁ failure =>
          rw [hrest] at habove
          cases failure with
          | some e => exact habove
          | none =>
            cases hsecond : fs₁.ensureDirectory path with
            | ok fs₂ =>
              simp only [hsecond]
              exact habove.trans (hensure fs₁ fs₂ habove.home hsecond)
            | error e =>
              simp only [hsecond]
              exact habove
      | _ => exact .refl fs

/-- **A file is written at the target of its path**, where no directory lies. -/
theorem write_eq_ok {path : String} {data : ByteArray} (h : fs.write path data = .ok fs') :
    Path.endsInSlash path = false ∧ fs.locate path = .ok (fs.target path) ∧
      fs.node? (fs.target path) ≠ some .directory ∧ fs' = fs.put (fs.target path) (.file data) := by
  unfold FileSystem.write at h
  -- A path that ends in a slash is never written to.
  cases hslash : Path.endsInSlash path with
  | true =>
    rw [hslash, if_pos rfl] at h
    obtain ⟨u, -, h⟩ := bind_eq_ok_iff.mp h
    obtain ⟨u', h, -⟩ := bind_eq_ok_iff.mp h
    cases h
  | false =>
    rw [hslash, if_neg Bool.false_ne_true] at h
    obtain ⟨l, hl, h⟩ := bind_eq_ok_iff.mp h
    obtain ⟨-, -, rfl⟩ := locate_eq_ok hl
    refine ⟨rfl, hl, ?_⟩
    split at h
    next => cases h
    next hnode => exact ⟨hnode, (Except.ok.inj h).symm⟩

theorem write_of_locate {path : String} {data : ByteArray} (hslash : Path.endsInSlash path = false)
    (hl : fs.locate path = .ok l) (hnode : fs.node? l ≠ some .directory) :
    fs.write path data = .ok (fs.put l (.file data)) := by
  unfold FileSystem.write
  rw [hslash, if_neg Bool.false_ne_true]
  refine bind_eq_ok_iff.mpr ⟨l, hl, ?_⟩
  split
  next heq => exact absurd heq hnode
  next => rfl

end FileSystem

/-! ### Directories above a file -/

/-- An ancestor of a path starts where the path does, and has its first names. -/
theorem Path.exists_names_of_mem_ancestors {p q : String} (h : q ∈ Path.ancestors p) :
    Path.isAbsolute q = Path.isAbsolute p ∧ ∃ rest, Path.names p = Path.names q ++ rest := by
  have hfrom : ∀ fuel p, q ∈ Path.ancestorsFrom fuel p →
      Path.isAbsolute q = Path.isAbsolute p ∧ ∃ rest, Path.names p = Path.names q ++ rest := by
    intro fuel
    induction fuel with
    | zero => exact fun p h => absurd h List.not_mem_nil
    | succ fuel ih =>
      intro p h
      rw [Path.ancestorsFrom] at h
      split at h
      next => cases h
      next q' hparent =>
        rcases List.mem_cons.mp h with rfl | h
        · exact ⟨rfl, [], (List.append_nil _).symm⟩
        · obtain ⟨habsolute, rest, hrest⟩ := ih q' h
          obtain ⟨rest', hrest'⟩ := Path.exists_names_parent? hparent
          -- the empty path has no ancestors
          have hne : q' ≠ "" := by
            rintro rfl
            cases fuel <;> cases h
          rw [Path.isAbsolute_of_beginning (Path.beginning_of_parent? hparent) hne] at habsolute
          exact ⟨habsolute, rest ++ rest', by rw [hrest', hrest, List.append_assoc]⟩
  exact hfrom _ p h

/-- The directory above a path: the path starts there, and has one name more. -/
theorem parentDir?_eq_some {path dir : String} (h : parentDir? path = some dir) :
    dir ≠ "" ∧ dir.toList <+: path.toList ∧ Path.isAbsolute dir = Path.isAbsolute path ∧
      ∃ last, Path.names path = Path.names dir ++ [last] := by
  rw [parentDir?, Option.filter_eq_some_iff] at h
  obtain ⟨hparent, hne⟩ := h
  have hne : dir ≠ "" := by simpa using hne
  have hbegins := Path.beginning_of_parent? hparent
  refine ⟨hne, hbegins, Path.isAbsolute_of_beginning hbegins hne, ?_⟩
  obtain ⟨hempty, -⟩ | hlast := Path.names_parent? hparent
  · exact absurd hempty hne
  · exact hlast

/-- **The directories that are made for a file are those that its path leads through.** -/
theorem makeRoomFor_grows (path : String) (fs : FileSystem) :
    FileSystem.Grows {l | fs.LeadsThrough path l} ∅ fs (makeRoomFor path fs).1 := by
  unfold makeRoomFor
  cases hdir : parentDir? path with
  | none => exact .refl fs
  | some dir =>
    obtain ⟨-, -, habsolute, last, hnames⟩ := parentDir?_eq_some hdir
    refine (fs.makeAlong_grows (Path.ancestors dir)).mono ?_ (Set.empty_subset _)
    rintro l ⟨q, hq, rfl⟩
    obtain ⟨habsolute', rest, hrest⟩ := Path.exists_names_of_mem_ancestors hq
    have hstart : fs.start q = fs.start path := by
      rw [FileSystem.start, FileSystem.start, habsolute', habsolute]
    -- behind the ancestor there is at least the last name
    obtain ⟨name, rest', hcons⟩ := List.exists_cons_of_ne_nil
      (show rest ++ [last] ≠ [] from List.append_ne_nil_of_right_ne_nil rest (List.cons_ne_nil _ _))
    refine ⟨Path.names q, name, rest', ?_, ?_⟩
    · rw [hnames, hrest, List.append_assoc, hcons]
    · rw [FileSystem.target, hstart]

/-- A file whose path is open needs no more directories. -/
theorem makeRoomFor_of_locate {path : String} {fs : FileSystem} {l : Location}
    (h : fs.locate path = .ok l) : makeRoomFor path fs = (fs, none) := by
  unfold makeRoomFor
  cases hdir : parentDir? path with
  | none => rfl
  | some dir =>
    obtain ⟨hne, hbegins, habsolute, last, hnames⟩ := parentDir?_eq_some hdir
    obtain ⟨hcheck, hopen, -⟩ := FileSystem.locate_eq_ok h
    have hstart : ∀ q, Path.isAbsolute q = Path.isAbsolute path → fs.start q = fs.start path := by
      intro q hq
      rw [FileSystem.start, FileSystem.start, hq]
    rw [hnames, FileSystem.open_append_iff] at hopen
    obtain ⟨hopen, hend, -⟩ := hopen
    -- the directory is found, with and without slashes at its end
    have hfound : ∀ q : String, q ≠ "" → q.toList <+: dir.toList → Path.names q = Path.names dir →
        fs.locate q = .ok (fs.target dir) ∧ fs.node? (fs.target dir) = some .directory := by
      intro q hq hqdir hqnames
      have hqpath := hqdir.trans hbegins
      have hqstart := hstart q (Path.isAbsolute_of_beginning hqpath hq)
      have htarget : fs.target q = fs.target dir := by
        rw [FileSystem.target, FileSystem.target, hqnames, hqstart, hstart dir habsolute]
      rw [← htarget]
      have hnode : fs.node? (fs.target q) = some .directory := by
        rw [FileSystem.target, hqstart, hqnames]
        exact hend
      have hqcheck := FileSystem.checkPath_of_beginning hcheck hqpath hq
      refine ⟨FileSystem.locate_of_open hqcheck ?_ hnode, hnode⟩
      rw [hqstart, hqnames]
      exact hopen
    obtain ⟨hlocate, hnode⟩ := hfound dir hne (List.prefix_refl _) rfl
    obtain ⟨hlocate', -⟩ := hfound (Path.withoutSlashes dir) (Path.withoutSlashes_ne_empty hne)
      (Path.beginning_withoutSlashes dir) (Path.names_withoutSlashes dir)
    have hmake : fs.makeDirectory dir = .error .alreadyExists := by
      unfold FileSystem.makeDirectory
      rw [FileSystem.checkPath_of_beginning hcheck hbegins hne, hlocate']
      dsimp only [bind, Except.bind]
      rw [hnode]
      rfl
    have hensure : fs.ensureDirectory dir = .ok fs := by
      unfold FileSystem.ensureDirectory
      rw [hmake]
      have hfind : fs.find dir = .ok .directory := by
        rw [FileSystem.find_eq_ok_iff]
        exact ⟨hlocate, hnode⟩
      have hdirectory : fs.isDirectory dir = true := by
        rw [FileSystem.isDirectory, hfind]
      rw [if_pos hdirectory]
    have halong : fs.makeDirectories dir = (fs, none) := by
      unfold FileSystem.makeDirectories Path.ancestors
      rw [Path.ancestorsFrom]
      cases Path.parent? dir with
      | none => rfl
      | some q =>
        rw [FileSystem.makeAlong, hensure]
    simp only [halong]
    rfl

end Bindery
