import Bindery.Proofs.Files.Growth

/-!
# Storing artifacts

Artifacts are stored one after the other, and whether a scaffold is written depends on files that
the same run may have changed by then. What a run does to one artifact is therefore told by its
*turn* (`Turn`): the files before it, what becomes of the artifact, and the files after it, with the
run before the turn and the run behind it known as growth. Every run consists of turns
(`turns_of_storeAll`), and where no two destinations are one, the turn of an artifact decides about
its destination for good:

* `Turn.find_of_written`, `Turn.find_of_exists` — what lies at a destination in the end;
* `Turn.written_of_undisturbed` — a scaffold that is missing is written, unless directories that
  were made for other artifacts got in its way;
* `Turn.again` — a second run does the same to every artifact and changes nothing.

The main statement is `storeAll_effect`. Destinations are distinct in it when they are different
files, as two paths of one file would overwrite each other. A scaffold that is missing should be
written whatever else is stored, but a directory that is made for another artifact can lie where the
scaffold should be, and then the scaffold counts as present (`storeAll_hides_scaffold`).
`StoreEffect.missing` says when this happens, and that nothing else keeps a scaffold from being
written.
-/

namespace Bindery

open FileSystem

/-! ### One artifact -/

/-- Where artifacts go. -/
def ends (fs : FileSystem) (dir : String) (artifacts : List Artifact) : Set Location :=
  {l | ∃ a ∈ artifacts, fs.target (a.destination dir) = l}

/-- What lies on the way there. -/
def ways (fs : FileSystem) (dir : String) (artifacts : List Artifact) : Set Location :=
  {l | ∃ a ∈ artifacts, fs.LeadsThrough (a.destination dir) l}

section Congr

variable {fs fs' : FileSystem} (h : fs'.home = fs.home) (dir : String) (artifacts : List Artifact)

include h

theorem ends_congr : ends fs' dir artifacts = ends fs dir artifacts := by
  simp only [ends, target_congr h]

theorem ways_congr : ways fs' dir artifacts = ways fs dir artifacts := by
  simp only [ways, leadsThrough_congr h]

end Congr

variable {dir : String} {a : Artifact} {fs fs' : FileSystem} {fate : Artifact.Fate}

/-- More artifacts have more ways and more ends. -/
theorem grows_of_subset {fs₀ : FileSystem} {xs ys : List Artifact} (hsubset : xs ⊆ ys)
    (h : Grows (ways fs₀ dir xs) (ends fs₀ dir xs) fs fs') :
    Grows (ways fs₀ dir ys) (ends fs₀ dir ys) fs fs' := by
  refine h.mono ?_ ?_
  · rintro l ⟨b, hb, hl⟩
    exact ⟨b, hsubset hb, hl⟩
  · rintro l ⟨b, hb, hl⟩
    exact ⟨b, hsubset hb, hl⟩

/-- **What becomes of an artifact**: it is kept and nothing is changed, or room is made for it, as
far as that goes, and with enough room it is written. -/
theorem store_cases (a : Artifact) (dir : String) (fs : FileSystem) :
    (a.isKept dir fs = true ∧ a.store dir fs = (fs, .ok .preserved)) ∨
      (a.isKept dir fs = false ∧
        ∃ fs₁, Grows {l | fs.LeadsThrough (a.destination dir) l} ∅ fs fs₁ ∧
          ((∃ e, a.store dir fs = (fs₁, .error e)) ∨
            ∃ fs₂, fs₁.write (a.destination dir) a.content.toUTF8 = .ok fs₂ ∧
              a.store dir fs = (fs₂, .ok .written))) := by
  unfold Artifact.store
  cases hkept : a.isKept dir fs with
  | true => exact .inl ⟨rfl, rfl⟩
  | false =>
    rw [if_neg Bool.false_ne_true]
    have hroom := makeRoomFor_grows (a.destination dir) fs
    cases hmade : makeRoomFor (a.destination dir) fs with
    | mk fs₁ failure =>
      rw [hmade] at hroom
      refine .inr ⟨rfl, fs₁, hroom, ?_⟩
      simp only [hmade]
      cases failure with
      | some e => exact .inl ⟨e, rfl⟩
      | none =>
        -- room may be made even if the file cannot be written
        cases hwrite : fs₁.write (a.destination dir) a.content.toUTF8 with
        | error e =>
          refine .inl ⟨.write (a.destination dir) e, ?_⟩
          simp only [hwrite]
        | ok fs₂ =>
          refine .inr ⟨fs₂, rfl, ?_⟩
          simp only [hwrite]

/-- An artifact that is dealt with is kept or written. -/
theorem store_eq_ok (h : a.store dir fs = (fs', .ok fate)) :
    (fate = .preserved ∧ a.isKept dir fs = true ∧ fs' = fs) ∨
      (fate = .written ∧ a.isKept dir fs = false ∧
        ∃ fs₁, Grows {l | fs.LeadsThrough (a.destination dir) l} ∅ fs fs₁ ∧
          fs₁.write (a.destination dir) a.content.toUTF8 = .ok fs') := by
  obtain ⟨hkept, hstore⟩ | ⟨hkept, fs₁, hroom, ⟨e, hstore⟩ | ⟨fs₂, hwrite, hstore⟩⟩ :=
    store_cases a dir fs
  · cases hstore.symm.trans h
    exact .inl ⟨rfl, hkept, rfl⟩
  · cases hstore.symm.trans h
  · cases hstore.symm.trans h
    exact .inr ⟨rfl, hkept, fs₁, hroom, hwrite⟩

theorem write_grows {fs : FileSystem} {path : String} {data : ByteArray}
    (h : fs.write path data = .ok fs') : Grows ∅ {fs.target path} fs fs' := by
  obtain ⟨-, -, hnode, rfl⟩ := write_eq_ok h
  exact (Grows.refl fs).write data rfl hnode

/-- What was written is found. -/
theorem find_of_write {fs fs' : FileSystem} {path : String} {data : ByteArray}
    (h : fs.write path data = .ok fs') : fs'.find path = .ok (.file data) := by
  obtain ⟨-, hlocate, hnode, rfl⟩ := write_eq_ok h
  have hroot : fs.target path ≠ [] := by
    intro hroot
    rw [hroot] at hnode
    exact hnode rfl
  have hgrows := write_grows h
  rw [find_eq_ok_iff, hgrows.target, node?_put hroot, if_pos rfl]
  exact ⟨hgrows.locate hlocate, rfl⟩

/-- An artifact adds to its own way and its own end. -/
theorem store_grows (h : a.store dir fs = (fs', .ok fate)) :
    Grows (ways fs dir [a]) (ends fs dir [a]) fs fs' := by
  obtain ⟨-, -, rfl⟩ | ⟨-, -, fs₁, hroom, hwrite⟩ := store_eq_ok h
  · exact .refl _
  · have hmade : Grows (ways fs dir [a]) (ends fs dir [a]) fs fs₁ :=
      hroom.mono (fun l hl => ⟨a, List.mem_singleton_self a, hl⟩) (Set.empty_subset _)
    have hwritten : Grows (ways fs dir [a]) (ends fs dir [a]) fs₁ fs' := by
      refine (write_grows hwrite).mono (Set.empty_subset _) ?_
      rintro l rfl
      exact ⟨a, List.mem_singleton_self a, (hroom.target _).symm⟩
    exact hmade.trans hwritten

/-! ### Turns -/

/-- **The turn of an artifact** in a run that starts from `fs` and ends with `fs'`. -/
def Turn (dir : String) (artifacts : List Artifact) (fs fs' : FileSystem) (a : Artifact)
    (fate : Artifact.Fate) : Prop :=
  ∃ (earlier later : List Artifact) (before after : FileSystem), artifacts = earlier ++ a :: later ∧
    Grows (ways fs dir earlier) (ends fs dir earlier) fs before ∧
    a.store dir before = (after, .ok fate) ∧
    Grows (ways fs dir later) (ends fs dir later) after fs'

/-- A run without an error deals with its first artifact and goes on. -/
theorem storeAll_cons_of_error_eq_none {rest : List Artifact}
    (h : (storeAll dir (a :: rest) fs).error = none) :
    ∃ fs₁ fate, a.store dir fs = (fs₁, .ok fate) ∧ (storeAll dir rest fs₁).error = none ∧
      storeAll dir (a :: rest) fs =
        { storeAll dir rest fs₁ with fates := (a, fate) :: (storeAll dir rest fs₁).fates } := by
  rw [storeAll] at h ⊢
  cases hstore : a.store dir fs with
  | mk fs₁ result =>
    cases result with
    | error e =>
      simp only [hstore] at h
      cases h
    | ok fate =>
      simp only [hstore] at h
      exact ⟨fs₁, fate, rfl, h, rfl⟩

/-- A run adds to the ways and the ends of its artifacts. -/
theorem storeAll_grows {artifacts : List Artifact} (h : (storeAll dir artifacts fs).error = none) :
    Grows (ways fs dir artifacts) (ends fs dir artifacts) fs (storeAll dir artifacts fs).files := by
  induction artifacts generalizing fs with
  | nil => exact .refl fs
  | cons a rest ih =>
    obtain ⟨fs₁, fate, hstore, hrest, heq⟩ := storeAll_cons_of_error_eq_none h
    have hfirst := store_grows hstore
    have hlater := ih hrest
    rw [ways_congr hfirst.home, ends_congr hfirst.home] at hlater
    rw [heq]
    exact (grows_of_subset (List.cons_subset_cons a (List.nil_subset rest)) hfirst).trans
      (grows_of_subset (List.subset_cons_self a rest) hlater)

/-- **A run consists of turns**, one for every artifact and in their order. -/
theorem turns_of_storeAll {artifacts : List Artifact}
    (h : (storeAll dir artifacts fs).error = none) :
    List.Forall₂
      (fun a f => f.1 = a ∧ Turn dir artifacts fs (storeAll dir artifacts fs).files a f.2)
      artifacts (storeAll dir artifacts fs).fates := by
  -- what was stored before is kept apart, so that the induction can go on behind it
  have hrun : ∀ (rest earlier : List Artifact) (fs₁ : FileSystem),
      Grows (ways fs dir earlier) (ends fs dir earlier) fs fs₁ →
      (storeAll dir rest fs₁).error = none →
      List.Forall₂
        (fun a f => f.1 = a ∧ Turn dir (earlier ++ rest) fs (storeAll dir rest fs₁).files a f.2)
        rest (storeAll dir rest fs₁).fates := by
    intro rest
    induction rest with
    | nil => exact fun _ _ _ _ => .nil
    | cons a rest ih =>
      intro earlier fs₁ hbefore hnone
      obtain ⟨fs₂, fate, hstore, hrest, heq⟩ := storeAll_cons_of_error_eq_none hnone
      have hfirst := store_grows hstore
      have hlater := storeAll_grows hrest
      rw [ways_congr hbefore.home, ends_congr hbefore.home] at hfirst
      rw [ways_congr (hfirst.home.trans hbefore.home),
        ends_congr (hfirst.home.trans hbefore.home)] at hlater
      have hafter : Grows (ways fs dir (earlier ++ [a])) (ends fs dir (earlier ++ [a])) fs fs₂ :=
        (grows_of_subset (List.subset_append_left _ _) hbefore).trans
          (grows_of_subset (List.subset_append_right _ _) hfirst)
      have htail := ih (earlier ++ [a]) fs₂ hafter hrest
      rw [List.append_assoc, List.singleton_append] at htail
      rw [heq]
      exact .cons ⟨rfl, earlier, rest, fs₁, fs₂, rfl, hbefore, hstore, hlater⟩ htail
  exact hrun artifacts [] fs (.refl fs) h

theorem map_fst_fates {artifacts : List Artifact} (h : (storeAll dir artifacts fs).error = none) :
    (storeAll dir artifacts fs).fates.map Prod.fst = artifacts :=
  (map_eq_map_of_forall₂ (f := id) (turns_of_storeAll h) fun _ _ hf => hf.1).trans (List.map_id _)

theorem exists_turn {artifacts : List Artifact} (h : (storeAll dir artifacts fs).error = none)
    (ha : a ∈ artifacts) :
    ∃ fate, Turn dir artifacts fs (storeAll dir artifacts fs).files a fate := by
  obtain ⟨f, -, -, hturn⟩ := exists_mem_of_forall₂ (turns_of_storeAll h) ha
  exact ⟨f.2, hturn⟩

theorem turn_of_mem_fates {artifacts : List Artifact} (h : (storeAll dir artifacts fs).error = none)
    {f : Artifact × Artifact.Fate} (hf : f ∈ (storeAll dir artifacts fs).fates) :
    Turn dir artifacts fs (storeAll dir artifacts fs).files f.1 f.2 := by
  obtain ⟨a, -, rfl, hturn⟩ := exists_mem_of_forall₂ (turns_of_storeAll h).flip hf
  exact hturn

/-! ### What a turn decides -/

/-- **A scaffold is undisturbed** when what the ways of other artifacts have in common with its own
path lies above its destination. For paths that do not lead up this means that no other artifact's
way leads through the destination. -/
def Artifact.Undisturbed (a : Artifact) (dir : String) (artifacts : List Artifact)
    (fs : FileSystem) : Prop :=
  ∀ b ∈ artifacts, b ≠ a → ∀ l, fs.Passes (a.destination dir) l →
    fs.LeadsThrough (b.destination dir) l → Above l (fs.target (a.destination dir))

/-- **A scaffold is displaced** when the way of an artifact leads through its destination, where a
directory is needed then. -/
def Artifact.Displaced (a : Artifact) (dir : String) (artifacts : List Artifact)
    (fs : FileSystem) : Prop :=
  ∃ b ∈ artifacts, fs.LeadsThrough (b.destination dir) (fs.target (a.destination dir))

/-- For a path that does not lead up there is no other way to be disturbed. -/
theorem Artifact.undisturbed_iff {artifacts : List Artifact}
    (ha : ".." ∉ Path.names (a.destination dir)) :
    a.Undisturbed dir artifacts fs ↔ ¬ a.Displaced dir artifacts fs := by
  constructor
  · rintro h ⟨b, hb, hthrough⟩
    by_cases heq : b = a
    · subst heq
      exact (hthrough.above ha).2 rfl
    · exact (h b hb heq _ (passes_iff.mpr (.inr rfl)) hthrough).2 rfl
  · intro h b hb _ l hpasses hthrough
    rcases passes_iff.mp hpasses with hown | rfl
    · exact hown.above ha
    · exact absurd ⟨b, hb, hthrough⟩ h

theorem Artifact.displaced_congr {artifacts : List Artifact} (h : fs'.home = fs.home) :
    a.Displaced dir artifacts fs' ↔ a.Displaced dir artifacts fs := by
  simp only [Artifact.Displaced, target_congr h, leadsThrough_congr h]

theorem isKept_eq_true_iff :
    a.isKept dir fs = true ↔ a.isScaffold = true ∧ fs.pathExists (a.destination dir) = true := by
  rw [Artifact.isKept, Bool.and_eq_true]

namespace Turn

variable {artifacts : List Artifact}

/-- A file that is generated again is written whatever lies there. -/
theorem written_of_generated (h : Turn dir artifacts fs fs' a fate) (ha : a.isScaffold = false) :
    fate = .written := by
  obtain ⟨earlier, later, before, after, -, -, hstore, -⟩ := h
  obtain ⟨-, hkept, -⟩ | ⟨hfate, -⟩ := store_eq_ok hstore
  · rw [isKept_eq_true_iff, ha] at hkept
    exact absurd hkept.1 Bool.false_ne_true
  · exact hfate

/-- A scaffold that is there from the beginning is kept. -/
theorem preserved_of_exists (h : Turn dir artifacts fs fs' a fate) (ha : a.isScaffold = true)
    (hexists : fs.pathExists (a.destination dir) = true) : fate = .preserved := by
  obtain ⟨earlier, later, before, after, -, hbefore, hstore, -⟩ := h
  obtain ⟨hfate, -⟩ | ⟨-, hkept, -⟩ := store_eq_ok hstore
  · exact hfate
  · rw [isKept_eq_true_iff.mpr ⟨ha, hbefore.pathExists hexists⟩] at hkept
    cases hkept

/-- Every destination exists in the end. -/
theorem pathExists (h : Turn dir artifacts fs fs' a fate) :
    fs'.pathExists (a.destination dir) = true := by
  obtain ⟨earlier, later, before, after, -, -, hstore, hlater⟩ := h
  refine hlater.pathExists ?_
  obtain ⟨-, hkept, rfl⟩ | ⟨-, -, fs₁, -, hwrite⟩ := store_eq_ok hstore
  · exact (isKept_eq_true_iff.mp hkept).2
  · have hlocate := (write_grows hwrite).locate (write_eq_ok hwrite).2.1
    obtain ⟨-, -, hnode, rfl⟩ := write_eq_ok hwrite
    refine pathExists_iff.mpr ⟨.file a.content.toUTF8, find_eq_ok_iff.mpr ⟨hlocate, ?_⟩⟩
    exact (node?_put (Grows.ne_nil_of_node?_ne_directory hnode)).trans (if_pos rfl)

/-- **Where a scaffold is displaced there is a directory in the end**: the way of the other artifact
leads through it, and that way is open. -/
theorem directory_of_displaced (hturns : ∀ b ∈ artifacts, ∃ fate, Turn dir artifacts fs fs' b fate)
    (hhome : fs'.home = fs.home) (h : a.Displaced dir artifacts fs) :
    fs'.node? (fs.target (a.destination dir)) = some .directory := by
  obtain ⟨b, hb, hthrough⟩ := h
  obtain ⟨fate, hturn⟩ := hturns b hb
  obtain ⟨n, hn⟩ := pathExists_iff.mp hturn.pathExists
  obtain ⟨-, hopen, -⟩ := locate_eq_ok (find_eq_ok_iff.mp hn).1
  exact hopen.directory ((leadsThrough_congr hhome _ _).mpr hthrough)

section Distinct

variable (distinct : (artifacts.map fun a => fs.target (a.destination dir)).Nodup)

include distinct

/-- No other artifact ends where this one does. -/
theorem not_mem_ends {earlier later : List Artifact} (hsplit : artifacts = earlier ++ a :: later) :
    fs.target (a.destination dir) ∉ ends fs dir earlier ∧
      fs.target (a.destination dir) ∉ ends fs dir later := by
  rw [hsplit, List.map_append, List.map_cons, List.nodup_append] at distinct
  obtain ⟨-, hlater, hearlier⟩ := distinct
  constructor
  · rintro ⟨b, hb, hl⟩
    exact hearlier _ (List.mem_map_of_mem hb) _ List.mem_cons_self hl
  · rintro ⟨b, hb, hl⟩
    exact (List.nodup_cons.mp hlater).1 (List.mem_map.mpr ⟨b, hb, hl⟩)

/-- **What was written is there in the end**, in its place. -/
theorem find_of_written (h : Turn dir artifacts fs fs' a .written) :
    fs'.find (a.destination dir) = .ok (.file a.content.toUTF8) ∧
      Path.endsInSlash (a.destination dir) = false ∧
      fs'.put (fs.target (a.destination dir)) (.file a.content.toUTF8) = fs' := by
  obtain ⟨earlier, later, before, after, hsplit, hbefore, hstore, hlater⟩ := h
  have hfree := (not_mem_ends distinct hsplit).2
  -- What was written is a file; what is stored later has other destinations and leaves it there.
  obtain ⟨hfate, -⟩ | ⟨-, -, fs₁, hroom, hwrite⟩ := store_eq_ok hstore
  · cases hfate
  · have hlocate := (write_grows hwrite).locate (write_eq_ok hwrite).2.1
    obtain ⟨hslash, -, hnode, rfl⟩ := write_eq_ok hwrite
    have htarget : fs₁.target (a.destination dir) = fs.target (a.destination dir) :=
      (hroom.target _).trans (hbefore.target _)
    rw [htarget] at hlocate hnode hlater
    have hput : (fs₁.put (fs.target (a.destination dir)) (.file a.content.toUTF8)).node?
        (fs.target (a.destination dir)) = some (.file a.content.toUTF8) :=
      (node?_put (Grows.ne_nil_of_node?_ne_directory hnode)).trans (if_pos rfl)
    refine ⟨?_, hslash, hlater.put_eq_self hput put_put_self hfree⟩
    rw [find_eq_ok_iff, hlater.target]
    change fs'.locate _ = .ok (fs₁.target _) ∧ fs'.node? (fs₁.target _) = _
    rw [htarget]
    exact ⟨hlater.locate hlocate, hlater.node?_of_not_mem hput hfree⟩

/-- **What is there from the beginning is not touched for a scaffold.** -/
theorem find_of_exists (h : Turn dir artifacts fs fs' a fate) (ha : a.isScaffold = true)
    (hexists : fs.pathExists (a.destination dir) = true) :
    fs'.find (a.destination dir) = fs.find (a.destination dir) := by
  obtain rfl := h.preserved_of_exists ha hexists
  obtain ⟨earlier, later, before, after, hsplit, hbefore, hstore, hlater⟩ := h
  obtain ⟨hearlier, hfree⟩ := not_mem_ends distinct hsplit
  obtain ⟨-, -, rfl⟩ | ⟨hfate, -⟩ := store_eq_ok hstore
  · obtain ⟨n, hn⟩ := pathExists_iff.mp hexists
    rw [hn]
    exact hlater.find_of_not_mem (hbefore.find_of_not_mem hn hearlier) (by rwa [hbefore.target])
  · cases hfate

/-- **A scaffold that is missing and undisturbed is written.** -/
theorem written_of_undisturbed (tree : fs.IsTree) (h : Turn dir artifacts fs fs' a fate)
    (hmissing : fs.pathExists (a.destination dir) = false)
    (hclear : a.Undisturbed dir artifacts fs) : fate = .written := by
  obtain ⟨earlier, later, before, after, hsplit, hbefore, hstore, -⟩ := h
  have hfree := (not_mem_ends distinct hsplit).1
  obtain ⟨-, hkept, -⟩ | ⟨hfate, -⟩ := store_eq_ok hstore
  · -- it came to exist, so a directory was made for an earlier artifact
    obtain ⟨l, ⟨b, hb, hthrough⟩, hpasses, habove⟩ :=
      exists_made_of_appears tree hbefore hfree hmissing (isKept_eq_true_iff.mp hkept).2
    have hne : b ≠ a := by
      rintro rfl
      exact hfree ⟨b, hb, rfl⟩
    have hmem : b ∈ artifacts := by
      rw [hsplit]
      exact List.mem_append_left _ hb
    exact absurd (hclear b hmem hne l hpasses hthrough) habove
  · exact hfate

/-- **A second run does to an artifact what its kind asks for, and changes nothing.** -/
theorem again (h : Turn dir artifacts fs fs' a fate) (hhome : fs'.home = fs.home) :
    a.store dir fs' = (fs', .ok (if a.isScaffold then .preserved else .written)) := by
  unfold Artifact.store
  cases ha : a.isScaffold with
  | true =>
    rw [if_pos (isKept_eq_true_iff.mpr ⟨ha, h.pathExists⟩)]
    rfl
  | false =>
    -- A generated file is written over itself, which changes nothing.
    obtain rfl := h.written_of_generated ha
    obtain ⟨hfind, hslash, hput⟩ := h.find_of_written distinct
    obtain ⟨hlocate, hnode⟩ := find_eq_ok_iff.mp hfind
    have hkept : ¬ a.isKept dir fs' = true := by
      rw [isKept_eq_true_iff, ha]
      exact fun h => absurd h.1 Bool.false_ne_true
    have hwrite : fs'.write (a.destination dir) a.content.toUTF8 = .ok fs' := by
      rw [write_of_locate hslash hlocate (by rw [hnode]; exact nofun), target_congr hhome, hput]
    simp only [if_neg hkept, makeRoomFor_of_locate hlocate, hwrite]
    rfl

/-- **When an artifact is kept**: it is a scaffold that was there from the beginning or that was
displaced. -/
theorem preserved_iff (tree : fs.IsTree)
    (hturns : ∀ b ∈ artifacts, ∃ fate, Turn dir artifacts fs fs' b fate)
    (h : Turn dir artifacts fs fs' a fate) (hpath : ".." ∉ Path.names (a.destination dir))
    (hhome : fs'.home = fs.home) :
    fate = .preserved ↔ a.isScaffold = true ∧
      (fs.pathExists (a.destination dir) = true ∨ a.Displaced dir artifacts fs) := by
  constructor
  · rintro rfl
    cases ha : a.isScaffold with
    | false => exact absurd (h.written_of_generated ha) nofun
    | true =>
      refine ⟨rfl, ?_⟩
      by_contra hneither
      rw [not_or, Bool.not_eq_true] at hneither
      have hwritten := h.written_of_undisturbed distinct tree hneither.1
        ((Artifact.undisturbed_iff hpath).mpr hneither.2)
      cases hwritten
  · rintro ⟨ha, hexists | hdisplaced⟩
    · exact h.preserved_of_exists ha hexists
    · cases fate with
      | preserved => rfl
      | written =>
        -- what is written is a file in the end, and there is a directory
        obtain ⟨-, hfile⟩ := find_eq_ok_iff.mp (h.find_of_written distinct).1
        rw [target_congr hhome, directory_of_displaced hturns hhome hdisplaced] at hfile
        cases hfile

end Distinct

end Turn

/-! ### The summary -/

/-- Every artifact that was dealt with is counted. -/
theorem written_add_preserved (s : Stored) :
    s.summary.written + s.summary.preserved = s.fates.length := by
  -- Each fate is counted once, whatever was counted before.
  have hfold : ∀ (fates : List (Artifact × Artifact.Fate)) (sum : Summary),
      (fates.foldl (fun sum f => sum.add f.2) sum).written +
        (fates.foldl (fun sum f => sum.add f.2) sum).preserved =
      sum.written + sum.preserved + fates.length := by
    intro fates
    induction fates with
    | nil => exact fun _ => rfl
    | cons f rest ih =>
      intro sum
      rw [List.foldl_cons, ih, List.length_cons]
      cases f.2 <;> simp only [Summary.add] <;> omega
  exact (hfold s.fates {}).trans (Nat.zero_add _)

/-! ### Whole runs -/

/-- **What storing artifacts does to the files.** -/
structure StoreEffect (dir : String) (artifacts : List Artifact) (fs fs' : FileSystem) : Prop where
  /-- Files that are generated again hold what was generated. -/
  generated : ∀ a ∈ artifacts, a.isScaffold = false →
    fs'.readBytes (a.destination dir) = .ok a.content.toUTF8
  /-- What was there in the place of a scaffold is as it was. -/
  kept : ∀ a ∈ artifacts, a.isScaffold = true → fs.pathExists (a.destination dir) = true →
    fs'.find (a.destination dir) = fs.find (a.destination dir)
  /-- A scaffold that was missing holds what was generated, unless it was disturbed. -/
  created : ∀ a ∈ artifacts, a.isScaffold = true → fs.pathExists (a.destination dir) = false →
    a.Undisturbed dir artifacts fs → fs'.readBytes (a.destination dir) = .ok a.content.toUTF8
  /-- Where the path of a missing scaffold does not lead up, it holds what was generated exactly if it
  is not displaced: nothing else keeps it from being written. -/
  missing : ∀ a ∈ artifacts, a.isScaffold = true → fs.pathExists (a.destination dir) = false →
    ".." ∉ Path.names (a.destination dir) →
      (fs'.readBytes (a.destination dir) = .ok a.content.toUTF8 ↔ ¬ a.Displaced dir artifacts fs)
  /-- Elsewhere nothing is changed, but for new directories on the way to a destination. -/
  others : ∀ l, (∀ a ∈ artifacts, fs.target (a.destination dir) ≠ l) →
    fs'.node? l = fs.node? l ∨
      (fs.node? l = none ∧ fs'.node? l = some .directory ∧
        ∃ a ∈ artifacts, fs.LeadsThrough (a.destination dir) l)

/-- Artifacts that are each stored without a change are stored without a change. -/
theorem storeAll_of_forall {fate : Artifact → Artifact.Fate} {artifacts : List Artifact}
    (h : ∀ a ∈ artifacts, a.store dir fs = (fs, .ok (fate a))) :
    storeAll dir artifacts fs = { files := fs, fates := artifacts.map fun a => (a, fate a) } := by
  induction artifacts with
  | nil => rfl
  | cons a rest ih =>
    obtain ⟨hfirst, hrest⟩ := List.forall_mem_cons.mp h
    rw [storeAll, hfirst]
    simp only [ih hrest, List.map_cons]

/-- **The effect of storing artifacts**, whose destinations are distinct files and which are stored
without an error; and that of storing them again, which is none. -/
theorem storeAll_effect {dir : String} {artifacts : List Artifact} {fs : FileSystem}
    (tree : fs.IsTree) (distinct : (artifacts.map fun a => fs.target (a.destination dir)).Nodup)
    (noError : (storeAll dir artifacts fs).error = none) :
    StoreEffect dir artifacts fs (storeAll dir artifacts fs).files ∧
      (storeAll dir artifacts fs).summary.written + (storeAll dir artifacts fs).summary.preserved =
        artifacts.length ∧
      storeAll dir artifacts (storeAll dir artifacts fs).files =
        { files := (storeAll dir artifacts fs).files
          fates := artifacts.map fun a => (a, if a.isScaffold then .preserved else .written) } := by
  -- what becomes of an artifact is known from its turn
  have hgrows := storeAll_grows noError
  have hcreated : ∀ a ∈ artifacts, fs.pathExists (a.destination dir) = false →
      a.Undisturbed dir artifacts fs →
      (storeAll dir artifacts fs).files.readBytes (a.destination dir) = .ok a.content.toUTF8 := by
    intro a ha hmissing hclear
    obtain ⟨fate, h⟩ := exists_turn noError ha
    obtain rfl := h.written_of_undisturbed distinct tree hmissing hclear
    exact readBytes_of_find (h.find_of_written distinct).1
  refine ⟨⟨fun a ha hkind => ?_, fun a ha hkind hexists => ?_,
    fun a ha _ hmissing hclear => hcreated a ha hmissing hclear,
    fun a ha _ hmissing hpath => ⟨fun hread hdisplaced => ?_, fun hclear => ?_⟩,
    fun l hl => ?_⟩, ?_, ?_⟩
  · obtain ⟨fate, h⟩ := exists_turn noError ha
    obtain rfl := h.written_of_generated hkind
    exact readBytes_of_find (h.find_of_written distinct).1
  · obtain ⟨fate, h⟩ := exists_turn noError ha
    exact h.find_of_exists distinct hkind hexists
  · -- a directory has no bytes
    have hdir := Turn.directory_of_displaced (fun b hb => exists_turn noError hb) hgrows.home
      hdisplaced
    obtain ⟨-, hfile⟩ := find_eq_ok_iff.mp (find_of_readBytes hread)
    rw [target_congr hgrows.home, hdir] at hfile
    cases hfile
  · exact hcreated a ha hmissing ((Artifact.undisturbed_iff hpath).mpr hclear)
  · obtain hsame | ⟨⟨a, ha, hthrough⟩, hnone, hdir⟩ | ⟨⟨a, ha, heq⟩, -⟩ := hgrows.node_cases l
    · exact .inl hsame
    · exact .inr ⟨hnone, hdir, a, ha, hthrough⟩
    · exact absurd heq (hl a ha)
  · rw [written_add_preserved, ← List.length_map (f := Prod.fst), map_fst_fates noError]
  · refine storeAll_of_forall fun a ha => ?_
    obtain ⟨fate, h⟩ := exists_turn noError ha
    exact h.again distinct hgrows.home

-- two paths of one file are no distinct destinations: what was stored first is lost
example :
    let artifacts : List Artifact :=
      [{ path := "demo.h", content := "first" }, { path := "sub/../demo.h", content := "second" }]
    (storeAll "gen" artifacts {}).error = none ∧
      (storeAll "gen" artifacts {}).files.readBytes "gen/demo.h" = .ok "second".toUTF8 := by
  decide +kernel

/-! ### Runs in which a scaffold is kept and one is lost -/

/-- A header and a scaffold beside the output directory. -/
def headerAndMakefile : List Artifact :=
  [{ path := "demo.h", content := "void demo_ping(void);\n" },
    { path := "Makefile", content := "build:\n", isScaffold := true, isProjectFile := true }]

/-- A directory in which somebody wrote a makefile. -/
def ownMakefile : FileSystem where
  entries := [(["Makefile"], .file "mine:\n".toUTF8)]

theorem isTree_ownMakefile : ownMakefile.IsTree :=
  isTree_of_parents (by simp [ownMakefile, node?])

/-- The makefile that is there is kept. -/
theorem storeAll_effect_ownMakefile :
    ownMakefile.IsTree ∧
      (headerAndMakefile.map fun a => ownMakefile.target (a.destination "gen")).Nodup ∧
      (storeAll "gen" headerAndMakefile ownMakefile).error = none ∧
      StoreEffect "gen" headerAndMakefile ownMakefile
        (storeAll "gen" headerAndMakefile ownMakefile).files ∧
      (storeAll "gen" headerAndMakefile ownMakefile).summary =
        { written := 1, preserved := 1 } := by
  have distinct :
      (headerAndMakefile.map fun a => ownMakefile.target (a.destination "gen")).Nodup := by
    decide
  have noError : (storeAll "gen" headerAndMakefile ownMakefile).error = none := by decide +kernel
  exact ⟨isTree_ownMakefile, distinct, noError,
    (storeAll_effect isTree_ownMakefile distinct noError).1, by decide +kernel⟩

/-- **A scaffold that is never written.** The output directory is called like the scaffold. There is
no file at first; the directory is made for the header, and then the scaffold counts as present. -/
theorem storeAll_hides_scaffold :
    FileSystem.IsTree {} ∧
      (headerAndMakefile.map fun a => FileSystem.target {} (a.destination "Makefile")).Nodup ∧
      (storeAll "Makefile" headerAndMakefile {}).error = none ∧
      ∃ a ∈ headerAndMakefile, a.isScaffold = true ∧
        FileSystem.pathExists {} (a.destination "Makefile") = false ∧
        (storeAll "Makefile" headerAndMakefile {}).files.readBytes (a.destination "Makefile") =
          .error .isADirectory := by
  refine ⟨isTree_of_parents (by simp), by decide, by decide +kernel, _,
    List.mem_cons_of_mem _ List.mem_cons_self, rfl, by decide, by decide +kernel⟩

end Bindery
