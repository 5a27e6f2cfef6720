import Bindery.Proofs.Preview

/-!
# Scaffolds under regeneration

A scaffold belongs to the user once it is written. Generation looks for it before it writes, so
whatever else a run does, also when it gives up half-way, it leaves a scaffold that it finds alone:

* `storeAll_beside` — storing artifacts does not touch a location where no artifact ends but a
  scaffold that is there, with or without an error;
* `storeAll_content` — a file that storing leaves behind was there before or is an artifact.

Cleaning comes before all that, and it does not look for anything. A scaffold that lies in the
output directory is swept away by a run that cleans (`GenerateOptions.Sweeps`), and when storing
comes to it, it is missing. So after every history a run keeps the scaffolds that it does not sweep,
and no others that were edited (`scaffold_kept_unless_swept`, `cleaning_loses_scaffold`). Over a
whole history of runs and edits a file stays as it is when every event spares it
(`find_after_of_spared`).
-/

namespace Bindery

open FileSystem

/-! ### Storing, with or without an error -/

section Store

variable {dir : String} {a : Artifact} {fs : FileSystem}

/-- Storing several artifacts ends with the first one or goes on behind it. -/
theorem files_storeAll_cons (a : Artifact) (rest : List Artifact) (dir : String) (fs : FileSystem) :
    (storeAll dir (a :: rest) fs).files = (a.store dir fs).1 ∨
      (storeAll dir (a :: rest) fs).files = (storeAll dir rest (a.store dir fs).1).files := by
  rw [storeAll]
  cases hstore : a.store dir fs with
  | mk fs₁ result =>
    cases result with
    | error e => exact .inl rfl
    | ok fate => exact .inr rfl

/-- **Storing an artifact leaves a location alone** where another artifact ends, and one where its
own scaffold lies already. -/
theorem store_beside {l : Location}
    (hown : fs.target (a.destination dir) = l →
      a.isScaffold = true ∧ fs.pathExists (a.destination dir) = true) :
    Grows Set.univ {k | k ≠ l} fs (a.store dir fs).1 := by
  obtain ⟨-, hstore⟩ | ⟨hkept, fs₁, hroom, ⟨e, hstore⟩ | ⟨fs₂, hwrite, hstore⟩⟩ :=
    store_cases a dir fs
  · rw [hstore]
    exact .refl fs
  · rw [hstore]
    exact hroom.mono (Set.subset_univ _) (Set.empty_subset _)
  · have hmade : Grows Set.univ {k | k ≠ l} fs fs₁ :=
      hroom.mono (Set.subset_univ _) (Set.empty_subset _)
    rw [hstore]
    refine hmade.trans ((write_grows hwrite).mono (Set.empty_subset _) ?_)
    rintro k rfl
    rw [Set.mem_ofPred_eq, hroom.target]
    intro heq
    -- the scaffold itself would have been kept
    rw [isKept_eq_true_iff.mpr (hown heq)] at hkept
    cases hkept

theorem storeAll_beside {l : Location} {artifacts : List Artifact}
    (hown : ∀ b ∈ artifacts, fs.target (b.destination dir) = l →
      b.isScaffold = true ∧ fs.pathExists (b.destination dir) = true) :
    Grows Set.univ {k | k ≠ l} fs (storeAll dir artifacts fs).files := by
  induction artifacts generalizing fs with
  | nil => exact .refl fs
  | cons b rest ih =>
    obtain ⟨hfirst, hrest⟩ := List.forall_mem_cons.mp hown
    have hgrows := store_beside hfirst
    obtain heq | heq := files_storeAll_cons b rest dir fs
    · rwa [heq]
    · rw [heq]
      refine hgrows.trans (ih fun c hc htarget => ?_)
      obtain ⟨hscaffold, hexists⟩ := hrest c hc ((hgrows.target _).symm.trans htarget)
      exact ⟨hscaffold, hgrows.pathExists hexists⟩

/-- **What storing leaves behind**: a file that was there before, or an artifact in its place. -/
theorem store_content {l : Location} {data : ByteArray}
    (h : (a.store dir fs).1.node? l = some (.file data)) :
    fs.node? l = some (.file data) ∨
      (fs.target (a.destination dir) = l ∧ data = a.content.toUTF8) := by
  -- Nothing happens, room is made only, or the file is written as well.
  obtain ⟨-, hstore⟩ | ⟨-, fs₁, hroom, ⟨e, hstore⟩ | ⟨fs₂, hwrite, hstore⟩⟩ := store_cases a dir fs
  · rw [hstore] at h
    exact .inl h
  · rw [hstore] at h
    -- Making room puts directories only, so a file was there before.
    exact .inl (hroom.node?_of_file (Set.notMem_empty l) h)
  · obtain ⟨-, -, hnode, rfl⟩ := write_eq_ok hwrite
    rw [hstore, node?_put (Grows.ne_nil_of_node?_ne_directory hnode), hroom.target] at h
    split at h
    next hl =>
      cases h
      exact .inr ⟨hl.symm, rfl⟩
    next => exact .inl (hroom.node?_of_file (Set.notMem_empty l) h)

theorem store_home (a : Artifact) (dir : String) (fs : FileSystem) :
    (a.store dir fs).1.home = fs.home := by
  obtain ⟨-, hstore⟩ | ⟨-, fs₁, hroom, ⟨e, hstore⟩ | ⟨fs₂, hwrite, hstore⟩⟩ := store_cases a dir fs
  · rw [hstore]
  · rw [hstore, hroom.home]
  · rw [hstore, (write_grows hwrite).home, hroom.home]

theorem storeAll_home (artifacts : List Artifact) (dir : String) (fs : FileSystem) :
    (storeAll dir artifacts fs).files.home = fs.home := by
  induction artifacts generalizing fs with
  | nil => rfl
  | cons b rest ih =>
    obtain heq | heq := files_storeAll_cons b rest dir fs
    · rw [heq, store_home]
    · rw [heq, ih, store_home]

theorem storeAll_content {artifacts : List Artifact} {l : Location} {data : ByteArray}
    (h : (storeAll dir artifacts fs).files.node? l = some (.file data)) :
    fs.node? l = some (.file data) ∨
      ∃ b ∈ artifacts, fs.target (b.destination dir) = l ∧ data = b.content.toUTF8 := by
  -- The first artifact writes the file, or the others do, into what it left.
  induction artifacts generalizing fs with
  | nil => exact .inl h
  | cons b rest ih =>
    have hfirst : (b.store dir fs).1.node? l = some (.file data) →
        fs.node? l = some (.file data) ∨
          ∃ c ∈ b :: rest, fs.target (c.destination dir) = l ∧ data = c.content.toUTF8 :=
      fun hfile => (store_content hfile).imp_right fun hown => ⟨b, List.mem_cons_self, hown⟩
    obtain heq | heq := files_storeAll_cons b rest dir fs
    · exact hfirst (heq ▸ h)
    · obtain hfile | ⟨c, hc, htarget, hdata⟩ := ih (heq ▸ h)
      · exact hfirst hfile
      · rw [target_congr (store_home b dir fs)] at htarget
        exact .inr ⟨c, List.mem_cons_of_mem _ hc, htarget, hdata⟩

end Store

/-! ### Cleaning -/

/-- **A directory is emptied of files**: none is left in it, and nothing else is changed. -/
structure Emptied (l : Location) (fs fs' : FileSystem) : Prop where
  home : fs'.home = fs.home
  gone : ∀ k, l <+: k → ∀ data, fs'.node? k ≠ some (.file data)
  kept : ∀ k, ¬ l <+: k → fs'.node? k = fs.node? k

/-- What is found outside of an emptied directory is found as before. -/
theorem Emptied.find {l : Location} {fs fs' : FileSystem} (h : Emptied l fs fs') {path : String}
    (hdown : ".." ∉ Path.names path) (houtside : ¬ l <+: fs.target path) :
    fs'.find path = fs.find path := by
  refine find_congr h.home fun k hpasses => h.kept k fun hk => ?_
  -- whatever the path comes by is a beginning of its target
  rcases passes_iff.mp hpasses with hthrough | rfl
  · exact houtside (hk.trans (hthrough.above hdown).1)
  · exact houtside hk

/-- **Cleaning** empties a directory, also when it fails to remove the directory itself. -/
theorem emptied_cleanOutput {dir : String} {fs : FileSystem} (h : fs.find dir = .ok .directory) :
    Emptied (fs.target dir) fs (cleanOutput dir fs).1 := by
  obtain ⟨fs', hremove, hcleared⟩ := removeDirectory_of_find h
  have hfiles : (cleanOutput dir fs).1 = fs' := by
    unfold cleanOutput
    rw [hremove]
  rw [hfiles]
  refine ⟨hcleared.home, fun k hbelow data hfile => ?_, hcleared.kept⟩
  by_cases hself : k = fs.target dir
  · -- at its own place there is no file, whether it stays or not
    subst hself
    by_cases hroot : fs.target dir = []
    · rw [hroot] at hfile
      cases hfile
    · rw [hcleared.itself hroot] at hfile
      split at hfile
      · cases hfile
      · cases hfile
  · rw [hcleared.below k hbelow hself] at hfile
    cases hfile

/-- Where there is no directory, cleaning changes nothing. -/
theorem cleanOutput_of_find_ne {dir : String} {fs : FileSystem} (h : fs.find dir ≠ .ok .directory) :
    (cleanOutput dir fs).1 = fs := by
  unfold cleanOutput
  cases hremove : fs.removeDirectory dir with
  | ok result =>
    obtain ⟨l, hlocate, hremove⟩ := bind_eq_ok_iff.mp hremove
    obtain ⟨-, -, rfl⟩ := locate_eq_ok hlocate
    -- A failure leaves the files as they are, and a success needs a directory.
    cases hnode : fs.node? (fs.target dir) with
    | none =>
      rw [hnode] at hremove
      cases hremove
    | some n =>
      rw [hnode] at hremove
      cases n with
      | file data => cases hremove
      | directory => exact absurd (find_eq_ok_iff.mpr ⟨hlocate, hnode⟩) h
  | error e => cases e <;> rfl

/-- The files that writing starts with, also when cleaning fails. -/
def GenerateOptions.cleaned (o : GenerateOptions) (fs : FileSystem) : FileSystem :=
  if o.clean then (cleanOutput o.output fs).1 else fs

/-- **A run sweeps a location** when it cleans, and the location is in the directory that it
cleans. -/
def GenerateOptions.Sweeps (o : GenerateOptions) (fs : FileSystem) (l : Location) : Prop :=
  o.clean = true ∧ o.dryRun = false ∧ fs.find o.output = .ok .directory ∧ fs.target o.output <+: l

section Cleaning

variable {o : GenerateOptions} {fs : FileSystem}

/-- Either a directory is emptied, or nothing is changed. -/
theorem cleaned_eq_or_emptied (o : GenerateOptions) (fs : FileSystem) :
    (o.clean = true ∧ fs.find o.output = .ok .directory ∧
      Emptied (fs.target o.output) fs (o.cleaned fs)) ∨
    (¬ (o.clean = true ∧ fs.find o.output = .ok .directory) ∧ o.cleaned fs = fs) := by
  unfold GenerateOptions.cleaned
  by_cases hclean : o.clean = true
  · rw [if_pos hclean]
    by_cases hfind : fs.find o.output = .ok .directory
    · exact .inl ⟨hclean, hfind, emptied_cleanOutput hfind⟩
    · exact .inr ⟨fun h => hfind h.2, cleanOutput_of_find_ne hfind⟩
  · rw [if_neg hclean]
    exact .inr ⟨fun h => hclean h.1, rfl⟩

theorem home_cleaned (o : GenerateOptions) (fs : FileSystem) : (o.cleaned fs).home = fs.home := by
  obtain ⟨-, -, hemptied⟩ | ⟨-, hsame⟩ := cleaned_eq_or_emptied o fs
  · exact hemptied.home
  · rw [hsame]

/-- What is not swept is found when writing starts. -/
theorem find_cleaned {path : String} (hreal : o.dryRun = false) (hdown : ".." ∉ Path.names path)
    (hspared : ¬ o.Sweeps fs (fs.target path)) : (o.cleaned fs).find path = fs.find path := by
  obtain ⟨hclean, hfind, hemptied⟩ | ⟨-, hsame⟩ := cleaned_eq_or_emptied o fs
  · exact hemptied.find hdown fun hin => hspared ⟨hclean, hreal, hfind, hin⟩
  · rw [hsame]

/-- What is swept is no file when writing starts. -/
theorem node?_cleaned_ne_file {l : Location} (hswept : o.Sweeps fs l) (data : ByteArray) :
    (o.cleaned fs).node? l ≠ some (.file data) := by
  obtain ⟨hclean, -, hfind, hin⟩ := hswept
  obtain ⟨-, -, hemptied⟩ | ⟨hneither, -⟩ := cleaned_eq_or_emptied o fs
  · exact hemptied.gone l hin data
  · exact absurd ⟨hclean, hfind⟩ hneither

end Cleaning

/-! ### Runs -/

theorem files_writeRun (w : World) (v : Verbosity) (o : GenerateOptions) (p : Project)
    (artifacts : List Artifact) (fs : FileSystem) :
    (writeRun w v o p artifacts fs).files = (storeAll o.output artifacts fs).files := by
  unfold writeRun
  dsimp only
  split
  · rfl
  · split <;> rfl

/-- A run that writes ends with cleaning or with storing. -/
theorem files_realRun (w : World) (v : Verbosity) (o : GenerateOptions) (p : Project)
    (artifacts : List Artifact) :
    (realRun w v o p artifacts).files = o.cleaned w.files ∨
      (realRun w v o p artifacts).files =
        (storeAll o.output artifacts (o.cleaned w.files)).files := by
  unfold realRun GenerateOptions.cleaned
  by_cases hclean : o.clean = true
  · rw [if_pos hclean, if_pos hclean]
    cases hcleaned : cleanOutput o.output w.files with
    | mk fs failure =>
      cases failure with
      | some e => exact .inl rfl
      | none => exact .inr (files_writeRun w v o p artifacts fs)
  · rw [if_neg hclean, if_neg hclean]
    exact .inr (files_writeRun w v o p artifacts w.files)

/-- **What a run leaves behind**: what it found, or what it cleaned, or what it stored. -/
theorem files_generate (w : World) (v : Verbosity) (file : String) (o : GenerateOptions) :
    (generate w v file o).files = w.files ∨
      ∃ p artifacts, checkOutputDir o.output = .ok () ∧ prepare w file o = .ok (p, artifacts) ∧
        o.dryRun = false ∧ (generate w v file o).files = (realRun w v o p artifacts).files := by
  unfold generate
  cases hdir : checkOutputDir o.output with
  | error e => exact .inl rfl
  | ok u =>
    cases hprepare : prepare w file o with
    | error f => exact .inl rfl
    | ok prepared =>
      cases hdry : o.dryRun with
      | true => exact .inl rfl
      | false => exact .inr ⟨prepared.1, prepared.2, rfl, rfl, rfl, rfl⟩

/-- **A run spares a location** when it does not sweep it, and when the artifacts that end there are
scaffolds that are there already. -/
def Spares (w : World) (file : String) (o : GenerateOptions) (l : Location) : Prop :=
  ∀ p artifacts, checkOutputDir o.output = .ok () → prepare w file o = .ok (p, artifacts) →
    ¬ o.Sweeps w.files l ∧ ∀ b ∈ artifacts, w.files.target (b.destination o.output) = l →
      b.isScaffold = true ∧ w.files.pathExists (b.destination o.output) = true

/-- **What a run spares is found after it**, whatever else it does, and also when it fails. -/
theorem find_generate_of_spares {w : World} {v : Verbosity} {file : String} {o : GenerateOptions}
    {path : String} {n : FileNode} (hdown : ".." ∉ Path.names path)
    (hspares : Spares w file o (w.files.target path)) (hfind : w.files.find path = .ok n) :
    (generate w v file o).files.find path = .ok n := by
  obtain hsame | ⟨p, artifacts, hdir, hprepare, hreal, hfiles⟩ := files_generate w v file o
  · rwa [hsame]
  · obtain ⟨hspared, hown⟩ := hspares p artifacts hdir hprepare
    have hhome := home_cleaned o w.files
    have hfound : (o.cleaned w.files).find path = .ok n := by
      rwa [find_cleaned hreal hdown hspared]
    rw [hfiles]
    obtain heq | heq := files_realRun w v o p artifacts
    · rwa [heq]
    · rw [heq]
      -- the scaffolds that end there are there after cleaning too
      have hgrows : Grows Set.univ {k | k ≠ w.files.target path} (o.cleaned w.files)
          (storeAll o.output artifacts (o.cleaned w.files)).files := by
        refine storeAll_beside fun b hb htarget => ?_
        rw [target_congr hhome] at htarget
        obtain ⟨hscaffold, hexists⟩ := hown b hb htarget
        refine ⟨hscaffold, ?_⟩
        rwa [pathExists, find_cleaned hreal ((placed_of_prepare hdir hprepare).down b hb)
          (by rwa [htarget])]
      refine hgrows.find_of_not_mem hfound fun hmem => hmem ?_
      exact target_congr hhome path

section Scaffold

variable {w : World} {v : Verbosity} {file : String} {o : GenerateOptions} {p : Project}
  {artifacts : List Artifact} {a : Artifact}

/-- A run spares a scaffold that is there and that it does not sweep. -/
theorem spares_scaffold (hprepare : prepare w file o = .ok (p, artifacts)) (ha : a ∈ artifacts)
    (hscaffold : a.isScaffold = true)
    (hexists : w.files.pathExists (a.destination o.output) = true)
    (hspared : ¬ o.Sweeps w.files (w.files.target (a.destination o.output))) :
    Spares w file o (w.files.target (a.destination o.output)) := by
  intro p' artifacts' hdir hprepare'
  obtain ⟨-, rfl⟩ := Prod.mk.inj (Except.ok.inj (hprepare.symm.trans hprepare'))
  refine ⟨hspared, fun b hb htarget => ?_⟩
  -- no other artifact ends where the scaffold does
  obtain rfl := List.inj_on_of_nodup_map (placed_of_prepare hdir hprepare).distinct hb ha htarget
  exact ⟨hscaffold, hexists⟩

/-- **A file that is swept is lost**: if a file is found in its place, it holds the artifact. -/
theorem find_generate_of_swept (hdir : checkOutputDir o.output = .ok ())
    (hprepare : prepare w file o = .ok (p, artifacts)) (ha : a ∈ artifacts)
    (hswept : o.Sweeps w.files (w.files.target (a.destination o.output))) {data : ByteArray}
    (hfind : (generate w v file o).files.find (a.destination o.output) = .ok (.file data)) :
    data = a.content.toUTF8 := by
  have hfiles : (generate w v file o).files = (realRun w v o p artifacts).files := by
    simp only [generate, hdir, hprepare, hswept.2.1, Bool.false_eq_true, if_false]
  -- after cleaning no file is in its place, so it was stored afterwards
  have hgone := node?_cleaned_ne_file hswept
  have hhome := home_cleaned o w.files
  obtain ⟨-, hnode⟩ := find_eq_ok_iff.mp hfind
  rw [hfiles] at hnode
  obtain heq | heq := files_realRun w v o p artifacts
  · rw [heq, target_congr hhome] at hnode
    exact absurd hnode (hgone data)
  · have hhome' : (storeAll o.output artifacts (o.cleaned w.files)).files.home = w.files.home :=
      (storeAll_home artifacts o.output _).trans hhome
    rw [heq, target_congr hhome'] at hnode
    obtain hbefore | ⟨b, hb, htarget, hdata⟩ := storeAll_content hnode
    · exact absurd hbefore (hgone data)
    · rw [target_congr hhome] at htarget
      -- no other artifact has this place
      obtain rfl :=
        List.inj_on_of_nodup_map (placed_of_prepare hdir hprepare).distinct hb ha htarget
      exact hdata

end Scaffold

/-! ### Histories -/

section Removal

variable {fs fs' : FileSystem} {path other : String}

theorem removeFile_eq_ok (h : fs.removeFile other = .ok fs') :
    (∃ data, fs.node? (fs.target other) = some (.file data)) ∧
      fs' = { fs with entries := fs.entries.filter fun e => e.1 ≠ fs.target other } := by
  obtain ⟨l, hlocate, h⟩ := bind_eq_ok_iff.mp h
  obtain ⟨-, -, rfl⟩ := locate_eq_ok hlocate
  split at h
  · cases h
  · cases h
  next data hnode => exact ⟨⟨data, hnode⟩, (Except.ok.inj h).symm⟩

/-- Whatever is found elsewhere is found when a file is removed. -/
theorem find_of_removeFile {n : FileNode} (h : fs.removeFile other = .ok fs')
    (hne : fs.target other ≠ fs.target path) (hfind : fs.find path = .ok n) :
    fs'.find path = fs.find path := by
  obtain ⟨⟨data, hfile⟩, rfl⟩ := removeFile_eq_ok h
  -- Looking a path up asks the places on the way only.
  refine find_congr rfl fun k hpasses => ?_
  have hk : k ≠ fs.target other := by
    rintro rfl
    obtain hthrough | heq := passes_iff.mp hpasses
    · -- on the way there are directories only
      obtain ⟨-, hopen, -⟩ := locate_eq_ok (find_eq_ok_iff.mp hfind).1
      rw [hopen.directory hthrough] at hfile
      cases hfile
    · exact hne heq
  rw [node?, node?]
  by_cases hroot : k = []
  · rw [if_pos hroot, if_pos hroot]
  · rw [if_neg hroot, if_neg hroot]
    refine (lookupEntry_filter (p := fun k => decide (k ≠ fs.target other))).trans ?_
    rw [if_pos (decide_eq_true hk)]

end Removal

/-- Something that happens to a project: a run, or a user who writes or removes a file. -/
inductive Event where
  | generate (v : Verbosity) (file : String) (o : GenerateOptions)
  | write (path : String) (data : ByteArray)
  | remove (path : String)

/-- The files after an event. What a user cannot do changes nothing. -/
def Event.files (w : World) : Event → FileSystem
  | generate v file o => (Bindery.generate w v file o).files
  | write path data => (w.files.write path data).toOption.getD w.files
  | remove path => (w.files.removeFile path).toOption.getD w.files

/-- The world after a history. -/
def World.after (w : World) (history : List Event) : World :=
  history.foldl (fun w e => { w with files := e.files w }) w

/-- An event spares a location. -/
def Event.Spares (w : World) (l : Location) : Event → Prop
  | generate _ file o => Bindery.Spares w file o l
  | write path _ | remove path => w.files.target path ≠ l

/-- Every event of a history spares a location, in the world that it finds. -/
def World.Spared (w : World) (l : Location) : List Event → Prop
  | [] => True
  | e :: later => e.Spares w l ∧ { w with files := e.files w }.Spared l later

theorem Event.home_files (w : World) (e : Event) : (e.files w).home = w.files.home := by
  -- A run cleans and stores, and the other events touch a single file.
  cases e with
  | generate v file o =>
    obtain hsame | ⟨p, artifacts, -, -, -, hfiles⟩ := files_generate w v file o
    · rw [Event.files, hsame]
    · rw [Event.files, hfiles]
      obtain heq | heq := files_realRun w v o p artifacts
      · rw [heq, home_cleaned]
      · rw [heq, storeAll_home, home_cleaned]
  | write path data =>
    rw [Event.files]
    cases hwrite : w.files.write path data with
    | error e => rfl
    | ok fs => exact (write_grows hwrite).home
  | remove path =>
    rw [Event.files]
    cases hremove : w.files.removeFile path with
    | error e => rfl
    | ok fs => rw [(removeFile_eq_ok hremove).2]; rfl

/-- **One event**: what it spares is found after it. -/
theorem Event.find_of_spares {w : World} {e : Event} {path : String} {n : FileNode}
    (hdown : ".." ∉ Path.names path) (hspares : e.Spares w (w.files.target path))
    (hfind : w.files.find path = .ok n) : (e.files w).find path = .ok n := by
  cases e with
  | generate v file o => exact find_generate_of_spares hdown hspares hfind
  | write other data =>
    rw [Event.files]
    cases hwrite : w.files.write other data with
    | error e => exact hfind
    | ok fs => exact (write_grows hwrite).find_of_not_mem hfind hspares.symm
  | remove other =>
    rw [Event.files]
    cases hremove : w.files.removeFile other with
    | error e => exact hfind
    | ok fs =>
      change fs.find path = _
      rw [← hfind]
      exact find_of_removeFile hremove hspares hfind

/-- **A whole history**: what every event spares is found in the end. -/
theorem find_after_of_spared {w : World} {history : List Event} {path : String} {n : FileNode}
    (hdown : ".." ∉ Path.names path) (hspared : w.Spared (w.files.target path) history)
    (hfind : w.files.find path = .ok n) : (w.after history).files.find path = .ok n := by
  induction history generalizing w with
  | nil => exact hfind
  | cons e later ih =>
    obtain ⟨hfirst, hlater⟩ := hspared
    refine ih (w := { w with files := e.files w }) ?_ (Event.find_of_spares hdown hfirst hfind)
    rwa [target_congr (Event.home_files w e)]

/-- **Scaffolds under regeneration.** After any history, a run that emits a scaffold leaves the file
that it finds in its place as it is, unless the run sweeps it; a file that is swept stays as it is
only if it holds what is generated anyway. The schema compiler is taken to leave the files alone, as
the type of `World.start` has it. -/
theorem scaffold_kept_unless_swept {w : World} {history : List Event} {v : Verbosity}
    {file : String} {o : GenerateOptions} {p : Project} {artifacts : List Artifact} {a : Artifact}
    {data : ByteArray} (dirOk : checkOutputDir o.output = .ok ())
    (emits : prepare (w.after history) file o = .ok (p, artifacts)) (mem : a ∈ artifacts)
    (scaffold : a.isScaffold = true)
    (there : (w.after history).files.find (a.destination o.output) = .ok (.file data)) :
    (¬ o.Sweeps (w.after history).files
        ((w.after history).files.target (a.destination o.output)) →
      (generate (w.after history) v file o).files.find (a.destination o.output) =
        .ok (.file data)) ∧
    (o.Sweeps (w.after history).files ((w.after history).files.target (a.destination o.output)) →
      (generate (w.after history) v file o).files.find (a.destination o.output) =
        .ok (.file data) →
      data = a.content.toUTF8) := by
  refine ⟨fun hspared => ?_, fun hswept => find_generate_of_swept dirOk emits mem hswept⟩
  have hexists := pathExists_iff.mpr ⟨_, there⟩
  exact find_generate_of_spares ((placed_of_prepare dirOk emits).down a mem)
    (spares_scaffold emits mem scaffold hexists hspared) there

/-- The scaffold of the beacon project that was filled in. -/
theorem exists_scaffold_beacon :
    ∃ a ∈ beaconArtifacts, a.isScaffold = true ∧
      a.destination cleaning.output = "generated/beacon_impl.h" ∧ a.content ≠ "mine" := by
  decide +kernel

def keeping : GenerateOptions := { cleaning with clean := false }

/-- A user fills the scaffold in, and the project is generated again without cleaning. -/
theorem scaffold_kept_beacon :
    ∃ a ∈ beaconArtifacts, a.isScaffold = true ∧
      (generate (beaconWorld.after [.write "generated/beacon_impl.h" "mine".toUTF8]) {}
          "beacon.yaml" keeping).files.find (a.destination keeping.output) =
        .ok (.file "mine".toUTF8) := by
  obtain ⟨a, ha, hscaffold, hdest, -⟩ := exists_scaffold_beacon
  -- the user writes what is there already
  have hwrite : beaconWorld.files.write "generated/beacon_impl.h" "mine".toUTF8 =
      .ok beaconWorld.files := rfl
  have hafter : beaconWorld.after [.write "generated/beacon_impl.h" "mine".toUTF8] =
      beaconWorld := by
    rw [World.after, List.foldl_cons, Event.files, hwrite]
    rfl
  have hprepare : prepare (beaconWorld.after [.write "generated/beacon_impl.h" "mine".toUTF8])
      "beacon.yaml" keeping = .ok (beaconProject, beaconArtifacts) := by
    rw [hafter]
    exact prepare_beacon
  have hthere : (beaconWorld.after [.write "generated/beacon_impl.h" "mine".toUTF8]).files.find
      (a.destination keeping.output) = .ok (.file "mine".toUTF8) := by
    rw [hafter, show a.destination keeping.output = _ from hdest]
    rfl
  refine ⟨a, ha, hscaffold, ?_⟩
  exact (scaffold_kept_unless_swept (by decide) hprepare ha hscaffold hthere).1
    fun hswept => Bool.false_ne_true hswept.1

/-- **Cleaning loses a scaffold.** The scaffold that was filled in lies in the output directory. A
run that cleans removes it with the directory, and whatever it writes there is another file. -/
theorem cleaning_loses_scaffold :
    prepare beaconWorld "beacon.yaml" cleaning = .ok (beaconProject, beaconArtifacts) ∧
      ∃ a ∈ beaconArtifacts, a.isScaffold = true ∧
        beaconWorld.files.find (a.destination cleaning.output) = .ok (.file "mine".toUTF8) ∧
        (generate beaconWorld {} "beacon.yaml" cleaning).files.find
            (a.destination cleaning.output) ≠ .ok (.file "mine".toUTF8) := by
  obtain ⟨a, ha, hscaffold, hdest, hcontent⟩ := exists_scaffold_beacon
  have hswept : cleaning.Sweeps beaconWorld.files
      (beaconWorld.files.target (a.destination cleaning.output)) := by
    rw [hdest]
    exact ⟨rfl, rfl, rfl, by decide⟩
  refine ⟨prepare_beacon, a, ha, hscaffold, by rw [hdest]; rfl, fun hfind => ?_⟩
  have hsame := find_generate_of_swept (by decide) prepare_beacon ha hswept hfind
  exact hcontent (String.toByteArray_inj.mp hsame.symm)

end Bindery
