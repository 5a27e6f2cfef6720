import Bindery.Generate
import Bindery.Proofs.Destinations
import Bindery.Proofs.Files.Removal
import Bindery.Proofs.Storing

/-!
# What a dry run predicts

A dry run looks at the files as they are. A real run may clean the output directory first, and it
looks for each scaffold when its turn comes. So the two agree about files that are generated again,
and they may disagree about scaffolds, in two ways: one that is there is removed with the output
directory and written anew (`Artifact.Cleared`), or one that is missing is not written because a
directory was made in its place (`Artifact.Displaced`).

* `placed_of_prepare` — the destinations of a run are distinct and do not lead up, so what is
  written about one artifact does not depend on the others;
* `pathExists_of_cleaned_iff` — what exists when writing starts;
* `preserved_of_cleaned_iff` — which scaffolds are kept in the end.

The main statement, `dryRun_lists_written_iff`, says exactly when the files that a dry run lists are
those that the run writes.
-/

namespace Bindery

open FileSystem

/-! ### What is listed and what is written -/

/-- The file that a dry run says is to be written. -/
def Preview.written? : Preview → Option String
  | write path => some path
  | clean _ | keep _ | compile _ => none

/-- The file that was written. -/
def Change.written? : Change → Option String
  | written path _ => some path
  | removed _ | made _ => none

/-- A dry run lists the artifacts that are not kept as things are. -/
theorem filterMap_written?_dryRun {w : World} {o : GenerateOptions} {p : Project}
    {artifacts : List Artifact} :
    (dryRun w o p artifacts).filterMap Preview.written? =
      (artifacts.filter fun a => !a.isKept o.output w.files).map (·.destination o.output) := by
  have hclean :
      (if o.clean then [Preview.clean o.output] else []).filterMap Preview.written? = [] := by
    split <;> rfl
  have hruns : ∀ (runs : List Invocation) (binary : String),
      (runs.map fun i => Preview.compile (i.display binary)).filterMap Preview.written? = [] := by
    intro runs binary
    rw [List.filterMap_map]
    exact List.filterMap_eq_nil_iff.mpr fun _ _ => rfl
  -- Only what is said of artifacts speaks of written files.
  rw [dryRun, List.filterMap_append, List.filterMap_append, hclean, hruns, List.nil_append,
    List.append_nil]
  induction artifacts with
  | nil => rfl
  | cons a rest ih =>
    rw [List.map_cons, List.filterMap_cons, ih, List.filter_cons, Artifact.preview]
    cases a.isKept o.output w.files <;> rfl

/-- A run writes the artifacts whose fate says so. -/
theorem filterMap_written?_fates {dir : String} {fates : List (Artifact × Artifact.Fate)} :
    (fates.filterMap (fateChange? dir)).filterMap Change.written? =
      (fates.filter fun f => f.2 = .written).map (·.1.destination dir) := by
  induction fates with
  | nil => rfl
  | cons f rest ih =>
    obtain ⟨a, fate⟩ := f
    rw [List.filterMap_cons, List.filter_cons]
    cases fate with
    | preserved => exact ih
    | written => exact congrArg (a.destination dir :: ·) ih

/-- Two choices from a list whose images are distinct have the same images when they are one. -/
theorem map_filter_eq_iff {α β : Type} {xs : List α} {d : α → β} {p q : α → Bool}
    (distinct : (xs.map d).Nodup) :
    (xs.filter p).map d = (xs.filter q).map d ↔ ∀ x ∈ xs, p x = q x := by
  constructor
  · intro h
    have hmem : ∀ {p q : α → Bool}, (xs.filter p).map d = (xs.filter q).map d →
        ∀ x ∈ xs, p x = true → q x = true := by
      intro p q h x hx hp
      -- Distinct destinations, so what is listed is the artifact itself.
      have himage : d x ∈ (xs.filter q).map d :=
        h ▸ List.mem_map_of_mem (List.mem_filter.mpr ⟨hx, hp⟩)
      obtain ⟨y, hy, heq⟩ := List.mem_map.mp himage
      obtain ⟨hy, hq⟩ := List.mem_filter.mp hy
      rwa [List.inj_on_of_nodup_map distinct hy hx heq] at hq
    intro x hx
    rw [Bool.eq_iff_iff]
    exact ⟨hmem h x hx, hmem h.symm x hx⟩
  · intro h
    rw [List.filter_congr h]

/-! ### Destinations -/

/-- **The destinations of artifacts are well placed**: none leads up, and all are distinct. -/
structure Placed (dir : String) (artifacts : List Artifact) (fs : FileSystem) : Prop where
  down : ∀ a ∈ artifacts, ".." ∉ Path.names (a.destination dir)
  named : ∀ a ∈ artifacts, fs.target (a.destination dir) ≠ []
  distinct : (artifacts.map fun a => fs.target (a.destination dir)).Nodup

theorem placed_of_emitPlanned {ctx : Context} {artifacts : List Artifact} {dir : String}
    (hname : isSnakeIdentifier ctx.apiName = true) (hrun : emitPlanned ctx = .ok artifacts)
    (hdir : checkOutputDir dir = .ok ()) (fs : FileSystem) : Placed dir artifacts fs := by
  have hnames : ∀ a ∈ artifacts,
      Path.names (a.destination dir) = Path.names (a.root dir) ++ Path.names a.path := by
    intro a ha
    rw [a.destination_eq, Path.names_join (path_leads_down hname hrun ha).1]
  have hdown : ∀ a ∈ artifacts, ".." ∉ Path.names (a.destination dir) := by
    intro a ha
    rw [hnames a ha, List.mem_append, not_or]
    exact ⟨not_mem_names_root hdir a, (path_leads_down hname hrun ha).2.2⟩
  -- the last name of a target is that of the artifact's path
  have hlast : ∀ a ∈ artifacts,
      (fs.target (a.destination dir)).getLast? = (Path.names a.path).getLast? := by
    intro a ha
    obtain ⟨-, hpath, -⟩ := path_leads_down hname hrun ha
    rw [target, resolve_eq_append (hdown a ha), hnames a ha, ← List.append_assoc,
      List.getLast?_append_of_ne_nil _ hpath]
  refine ⟨hdown, fun a ha hroot => ?_, ?_⟩
  · have hnone := hlast a ha
    rw [hroot, List.getLast?_nil] at hnone
    exact (path_leads_down hname hrun ha).2.1 (List.getLast?_eq_none_iff.mp hnone.symm)
  · refine List.Nodup.of_map List.getLast? ?_
    rw [List.map_map]
    have heq := List.map_congr_left hlast
    exact heq ▸ nodup_lastNames hname hrun

/-- **What is prepared** is what the emitters make of a description with a proper name. -/
theorem emitPlanned_of_prepare {w : World} {file : String} {o : GenerateOptions} {p : Project}
    {artifacts : List Artifact} (h : prepare w file o = .ok (p, artifacts)) :
    isSnakeIdentifier (p.context o.output).apiName = true ∧
      emitPlanned (p.context o.output) = .ok artifacts := by
  obtain ⟨p', hload, h⟩ := bind_eq_ok_iff.mp h
  obtain ⟨made, hrun, h⟩ := bind_eq_ok_iff.mp h
  obtain ⟨rfl, rfl⟩ := Prod.mk.inj (Except.ok.inj h)
  obtain ⟨a, hfile, hload⟩ := bind_eq_ok_iff.mp (mapError_eq_ok_iff.mp hload)
  obtain ⟨files, -, hload⟩ := bind_eq_ok_iff.mp hload
  obtain ⟨types, -, hload⟩ := bind_eq_ok_iff.mp hload
  obtain ⟨_, -, hload⟩ := bind_eq_ok_iff.mp hload
  obtain rfl := Except.ok.inj hload
  have hnamed := (snakeNamed_of_ofFile (mapError_eq_ok_iff.mp hfile)).override
    o.overrides.language o.overrides.targets
  exact ⟨hnamed.name, mapError_eq_ok_iff.mp hrun⟩

/-- **What is prepared is well placed**, for every output directory that is accepted. -/
theorem placed_of_prepare {w : World} {file : String} {o : GenerateOptions} {p : Project}
    {artifacts : List Artifact} (hdir : checkOutputDir o.output = .ok ())
    (h : prepare w file o = .ok (p, artifacts)) : Placed o.output artifacts w.files := by
  obtain ⟨hname, hrun⟩ := emitPlanned_of_prepare h
  exact placed_of_emitPlanned hname hrun hdir w.files

/-! ### Runs -/

/-- The files when writing starts: cleaned if that is asked for. -/
def Cleaned (o : GenerateOptions) (fs fs' : FileSystem) : Prop :=
  if o.clean then cleanOutput o.output fs = (fs', none) else fs' = fs

theorem writeRun_of_failure_eq_none {w : World} {v : Verbosity} {o : GenerateOptions} {p : Project}
    {artifacts : List Artifact} {fs : FileSystem}
    (h : (writeRun w v o p artifacts fs).failure = none) :
    (storeAll o.output artifacts fs).error = none ∧
      (writeRun w v o p artifacts fs).changes =
        (storeAll o.output artifacts fs).fates.filterMap (fateChange? o.output) := by
  unfold writeRun at h ⊢
  dsimp only at h ⊢
  split at h
  next => cases h
  next herror =>
    split at h
    next => cases h
    next => exact ⟨herror, rfl⟩

/-- **What a run without a failure writes**: the artifacts, in the files that cleaning leaves. -/
theorem realRun_of_failure_eq_none {w : World} {v : Verbosity} {o : GenerateOptions} {p : Project}
    {artifacts : List Artifact} (h : (realRun w v o p artifacts).failure = none) :
    ∃ fs, Cleaned o w.files fs ∧ (storeAll o.output artifacts fs).error = none ∧
      (realRun w v o p artifacts).changes.filterMap Change.written? =
        ((storeAll o.output artifacts fs).fates.filter fun f => f.2 = .written).map
          (·.1.destination o.output) := by
  unfold realRun at h ⊢
  split at h
  next hclean =>
    dsimp only at h ⊢
    split at h
    next => cases h
    -- Cleaned first: what is written is written into the cleared files.
    next fs hcleaned =>
      obtain ⟨herror, hchanges⟩ := writeRun_of_failure_eq_none h
      refine ⟨fs, by rw [Cleaned, if_pos hclean, hcleaned], herror, ?_⟩
      rw [if_pos hclean]
      change (_ :: (writeRun w v o p artifacts fs).changes).filterMap _ = _
      rw [List.filterMap_cons, hchanges]
      exact filterMap_written?_fates
  next hclean =>
    obtain ⟨herror, hchanges⟩ := writeRun_of_failure_eq_none h
    refine ⟨w.files, by rw [Cleaned, if_neg hclean], herror, ?_⟩
    rw [if_neg hclean, hchanges]
    exact filterMap_written?_fates

section Prepared

variable {w : World} {v : Verbosity} {file : String} {o : GenerateOptions} {p : Project}
  {artifacts : List Artifact} (hdir : checkOutputDir o.output = .ok ())
  (hprepare : prepare w file o = .ok (p, artifacts))

include hdir hprepare

/-- What a real run comes to once everything is prepared. -/
theorem generate_real (hreal : o.dryRun = false) :
    (generate w v file o).failure = (realRun w v o p artifacts).failure ∧
      (generate w v file o).changes = (realRun w v o p artifacts).changes := by
  simp only [generate, hdir, hprepare, hreal, Bool.false_eq_true, if_false, and_self]

/-- What a dry run comes to instead. -/
theorem generate_dry :
    generate w v file { o with dryRun := true } =
      { files := w.files
        output := v.say ("Generating from " ++ file) ++
          String.join ((dryRun w o p artifacts).map (·.line v))
        previews := dryRun w o p artifacts } := by
  -- nothing that is prepared depends on the kind of run
  have hprepare' : prepare w file { o with dryRun := true } = .ok (p, artifacts) := hprepare
  simp only [generate, hdir, hprepare', if_true]
  rfl

end Prepared

/-- A run without a failure has checked the output directory and prepared its artifacts. -/
theorem exists_prepare_of_failure_eq_none {w : World} {v : Verbosity} {file : String}
    {o : GenerateOptions} (h : (generate w v file o).failure = none) :
    ∃ p artifacts, checkOutputDir o.output = .ok () ∧ prepare w file o = .ok (p, artifacts) := by
  unfold generate at h
  split at h
  next => cases h
  next hdir =>
    dsimp only at h
    split at h
    next => cases h
    next p artifacts hprepare => exact ⟨p, artifacts, hdir, hprepare⟩

/-! ### Scaffolds -/

/-- **A scaffold is cleared** when it lies in the output directory, and that is cleaned. -/
def Artifact.Cleared (a : Artifact) (o : GenerateOptions) (fs : FileSystem) : Prop :=
  o.clean = true ∧ fs.pathExists o.output = true ∧
    fs.target o.output <+: fs.target (a.destination o.output)

/-- **A dry run predicts a scaffold** that is there when the scaffold is not cleared, or when it is
replaced by a directory; and one that is missing when no directory is made in its place. -/
def Artifact.Predicted (a : Artifact) (o : GenerateOptions) (artifacts : List Artifact)
    (fs : FileSystem) : Prop :=
  if fs.pathExists (a.destination o.output) then
    a.Cleared o fs → a.Displaced o.output artifacts fs
  else ¬ a.Displaced o.output artifacts fs

section Cleaned

variable {o : GenerateOptions} {fs fs' : FileSystem} (h : Cleaned o fs fs')

include h

/-- Either the output directory is removed, or nothing is changed. -/
theorem cleaned_cases :
    (o.clean = true ∧ fs.pathExists o.output = true ∧ Removed (fs.target o.output) fs fs') ∨
      (¬ (o.clean = true ∧ fs.pathExists o.output = true) ∧ fs' = fs) := by
  unfold Cleaned at h
  split at h
  next hclean =>
    obtain ⟨hexists, hremoved⟩ | ⟨hmissing, hsame⟩ := cleanOutput_eq_none h
    · exact .inl ⟨hclean, hexists, hremoved⟩
    · refine .inr ⟨fun hboth => ?_, hsame⟩
      rw [hboth.2] at hmissing
      cases hmissing
  next hclean => exact .inr ⟨fun hboth => hclean hboth.1, h⟩

theorem home_of_cleaned : fs'.home = fs.home := by
  obtain ⟨-, -, hremoved⟩ | ⟨-, rfl⟩ := cleaned_cases h
  · exact hremoved.home
  · rfl

theorem isTree_of_cleaned (tree : fs.IsTree) : fs'.IsTree := by
  obtain ⟨-, -, hremoved⟩ | ⟨-, rfl⟩ := cleaned_cases h
  · exact hremoved.isTree tree
  · exact tree

/-- **What exists when writing starts** has existed before and was not cleared. -/
theorem pathExists_of_cleaned_iff {a : Artifact}
    (hdown : ".." ∉ Path.names (a.destination o.output))
    (hnamed : fs.target (a.destination o.output) ≠ []) :
    fs'.pathExists (a.destination o.output) = true ↔
      fs.pathExists (a.destination o.output) = true ∧ ¬ a.Cleared o fs := by
  obtain ⟨hclean, hexists, hremoved⟩ | ⟨hneither, rfl⟩ := cleaned_cases h
  · rw [hremoved.pathExists_iff hdown hnamed, Artifact.Cleared, hclean, hexists, eq_self, true_and,
      true_and]
  · exact ⟨fun h => ⟨h, fun hcleared => hneither ⟨hcleared.1, hcleared.2.1⟩⟩, And.left⟩

end Cleaned

section Stored

variable {o : GenerateOptions} {artifacts : List Artifact} {fs fs' : FileSystem}
  (tree : fs.IsTree) (hplaced : Placed o.output artifacts fs) (hcleaned : Cleaned o fs fs')
  (hstored : (storeAll o.output artifacts fs').error = none)

include tree hplaced hcleaned hstored

/-- **Which artifacts a real run keeps**, by the files before cleaning. -/
theorem preserved_of_cleaned_iff {f : Artifact × Artifact.Fate}
    (hf : f ∈ (storeAll o.output artifacts fs').fates) :
    f.2 = .preserved ↔ f.1.isScaffold = true ∧
      ((fs.pathExists (f.1.destination o.output) = true ∧ ¬ f.1.Cleared o fs) ∨
        f.1.Displaced o.output artifacts fs) := by
  have hmem : f.1 ∈ artifacts := map_fst_fates hstored ▸ List.mem_map_of_mem hf
  have hdown := hplaced.down f.1 hmem
  have hhome := home_of_cleaned hcleaned
  have hdistinct : (artifacts.map fun a => fs'.target (a.destination o.output)).Nodup := by
    simpa only [target_congr hhome] using hplaced.distinct
  have hturn := (turn_of_mem_fates hstored hf).preserved_iff hdistinct
    (isTree_of_cleaned hcleaned tree) (fun b => exists_turn hstored) hdown
    (storeAll_grows hstored).home
  rwa [pathExists_of_cleaned_iff hcleaned hdown (hplaced.named f.1 hmem),
    Artifact.displaced_congr hhome] at hturn

/-- The dry run is right about an artifact when it predicts the scaffold, and only then. -/
theorem not_isKept_eq_written_iff {f : Artifact × Artifact.Fate}
    (hf : f ∈ (storeAll o.output artifacts fs').fates) :
    (!f.1.isKept o.output fs) = decide (f.2 = .written) ↔
      (f.1.isScaffold = true → f.1.Predicted o artifacts fs) := by
  have hwritten : f.2 = .written ↔ ¬ f.2 = .preserved := by cases f.2 <;> simp
  rw [Bool.eq_iff_iff, Bool.not_eq_true', Bool.eq_false_iff, Ne, isKept_eq_true_iff,
    decide_eq_true_iff, hwritten, preserved_of_cleaned_iff tree hplaced hcleaned hstored hf,
    not_iff_not, Artifact.Predicted, and_congr_right_iff]
  refine imp_congr_right fun _ => ?_
  by_cases hexists : fs.pathExists (f.1.destination o.output) = true
  · rw [if_pos hexists, eq_true hexists, true_and, true_iff, imp_iff_not_or]
  · rw [if_neg hexists, eq_false hexists, false_and, false_or, false_iff]

/-- **What is listed is written** exactly when every scaffold is predicted. -/
theorem listed_eq_written_iff :
    (artifacts.filter fun a => !a.isKept o.output fs).map (·.destination o.output) =
        ((storeAll o.output artifacts fs').fates.filter fun f => f.2 = .written).map
          (·.1.destination o.output) ↔
      ∀ a ∈ artifacts, a.isScaffold = true → a.Predicted o artifacts fs := by
  have hfst := map_fst_fates hstored
  -- both lists are chosen from what was dealt with
  have hlisted : (artifacts.filter fun a => !a.isKept o.output fs).map (·.destination o.output) =
      ((storeAll o.output artifacts fs').fates.filter fun f => !f.1.isKept o.output fs).map
        (·.1.destination o.output) := by
    conv_lhs => rw [← hfst]
    rw [List.filter_map, List.map_map]
    rfl
  have hdistinct :
      ((storeAll o.output artifacts fs').fates.map (·.1.destination o.output)).Nodup := by
    have h := hplaced.distinct
    rw [← hfst, List.map_map] at h
    refine List.Nodup.of_map fs.target ?_
    rw [List.map_map]
    exact h
  rw [hlisted, map_filter_eq_iff hdistinct]
  constructor
  · intro h a ha
    obtain ⟨f, hf, rfl⟩ := List.mem_map.mp (hfst.symm ▸ ha)
    exact (not_isKept_eq_written_iff tree hplaced hcleaned hstored hf).mp (h f hf)
  · intro h f hf
    exact (not_isKept_eq_written_iff tree hplaced hcleaned hstored hf).mpr
      (h f.1 (hfst ▸ List.mem_map_of_mem hf))

end Stored

/-- **Exactly when a dry run lists what the run writes**, in the same order. The schema compiler is
taken to leave the files alone, as the type of `World.start` has it. -/
theorem dryRun_lists_written_iff {w : World} {v : Verbosity} {file : String} {o : GenerateOptions}
    (tree : w.files.IsTree) (real : o.dryRun = false)
    (success : (generate w v file o).failure = none) :
    ∃ p artifacts, prepare w file o = .ok (p, artifacts) ∧
      (generate w v file { o with dryRun := true }).failure = none ∧
      (generate w v file { o with dryRun := true }).output =
        v.say ("Generating from " ++ file) ++
          String.join ((generate w v file { o with dryRun := true }).previews.map (·.line v)) ∧
      ((generate w v file { o with dryRun := true }).previews.filterMap Preview.written? =
          (generate w v file o).changes.filterMap Change.written? ↔
        ∀ a ∈ artifacts, a.isScaffold = true → a.Predicted o artifacts w.files) := by
  obtain ⟨p, artifacts, hdir, hprepare⟩ := exists_prepare_of_failure_eq_none success
  obtain ⟨hfailure, hchanges⟩ := generate_real (v := v) hdir hprepare real
  rw [hfailure] at success
  obtain ⟨fs, hcleaned, hstored, hwritten⟩ := realRun_of_failure_eq_none success
  have hdry := generate_dry (v := v) hdir hprepare
  refine ⟨p, artifacts, hprepare, by rw [hdry], by rw [hdry], ?_⟩
  rw [hdry, hchanges, hwritten, filterMap_written?_dryRun]
  exact listed_eq_written_iff tree (placed_of_prepare hdir hprepare) hcleaned hstored

/-! ### A run that cleans -/

/-- A file that holds the text of a description. -/
theorem ofFile_of_find {fs : FileSystem} {path text : String} {a : Api}
    (h : fs.find path = .ok (.file text.toUTF8)) (hsize : text.toUTF8.size ≤ maxDescriptionSize)
    (hyaml : Api.ofYaml text = .ok a) : Api.ofFile fs path = .ok a := by
  refine bind_eq_ok_iff.mpr ⟨_, mapError_eq_ok_iff.mpr (size_of_find h), ?_⟩
  rw [if_neg (Nat.not_lt.mpr hsize)]
  exact bind_eq_ok_iff.mpr ⟨_, mapError_eq_ok_iff.mpr (readText_of_find h), hyaml⟩

def beaconText : String :=
  "api:\n  name: beacon\n  version: 1.0.0\n  impl_lang: cpp\n  targets: [linux]\n"
    ++ "flatbuffers: [beacon.fbs]\n"
    ++ "interfaces:\n  - name: light\n    methods:\n      - name: dim\n"

def beaconProject : Project where
  source := "beacon.yaml"
  api := {
    metadata := { name := "beacon", version := "1.0.0", language := .cpp, targets := [.linux] }
    schemas := ["beacon.fbs"]
    interfaces := [{ name := "light", methods := [{ name := "dim" }] }] }
  types := Keyed.empty
  schemaFiles := ["./beacon.fbs"]

/-- A project that was generated before, and a scaffold that was filled in. -/
def beaconWorld : World where
  files := {
    entries := [(["beacon.fbs"], .file ByteArray.empty), (["beacon.yaml"], .file beaconText.toUTF8),
      (["generated"], .directory), (["generated", "beacon_impl.h"], .file "mine".toUTF8)] }
  programDir := ""

def cleaning : GenerateOptions where
  output := "generated"
  clean := true
  skipCompiler := true

theorem ofYaml_beaconText : Api.ofYaml beaconText = .ok beaconProject.api := by
  have hread : ((Yaml.load beaconText).toOption.any fun doc => Shape.description.fits doc &&
      decide (Api.ofJson? doc = some beaconProject.api)) = true := by decide +kernel
  cases hload : Yaml.load beaconText with
  | error e =>
    rw [hload] at hread
    cases hread
  | ok doc =>
    rw [hload, Except.toOption, Option.any_some, Bool.and_eq_true, decide_eq_true_iff] at hread
    exact bind_eq_ok_iff.mpr ⟨doc, mapError_eq_ok_iff.mpr hload, ofDocument_eq_ok_iff.mpr hread⟩

theorem load_beaconProject :
    Project.load beaconWorld.files beaconWorld.programDir "beacon.yaml" {} = .ok beaconProject := by
  have hfile : Api.ofFile beaconWorld.files "beacon.yaml" = .ok beaconProject.api :=
    ofFile_of_find rfl (by decide +kernel) ofYaml_beaconText
  have hfound : beaconProject.api.schemas.mapM
      (Schema.findFile beaconWorld.files (searchDirs "beacon.yaml" "")) =
        .ok ["./beacon.fbs"] := rfl
  have htypes : Schema.ofFiles beaconWorld.files (searchDirs "beacon.yaml" "")
      beaconProject.api.schemas = .ok Keyed.empty := rfl
  have hvalid : beaconProject.api.validate (some Keyed.empty) = [] := by decide
  have hchecked : checkValid beaconProject.api Keyed.empty = .ok () := by rw [checkValid, hvalid]
  -- Every stage of the loading is given its result.
  refine bind_eq_ok_iff.mpr ⟨_, mapError_eq_ok_iff.mpr hfile, ?_⟩
  refine bind_eq_ok_iff.mpr ⟨_, mapError_eq_ok_iff.mpr hfound, ?_⟩
  refine bind_eq_ok_iff.mpr ⟨_, mapError_eq_ok_iff.mpr htypes, ?_⟩
  exact bind_eq_ok_iff.mpr ⟨_, hchecked, rfl⟩

def beaconArtifacts : List Artifact :=
  (emitPlanned (beaconProject.context cleaning.output)).toOption.getD []

theorem prepare_beacon :
    prepare beaconWorld "beacon.yaml" cleaning = .ok (beaconProject, beaconArtifacts) := by
  have hmade : ∃ artifacts, emitPlanned (beaconProject.context cleaning.output) = .ok artifacts :=
    ⟨_, rfl⟩
  obtain ⟨artifacts, hmade⟩ := hmade
  refine bind_eq_ok_iff.mpr ⟨_, mapError_eq_ok_iff.mpr load_beaconProject, ?_⟩
  refine bind_eq_ok_iff.mpr ⟨beaconArtifacts, mapError_eq_ok_iff.mpr ?_, rfl⟩
  rw [beaconArtifacts, hmade]
  rfl

theorem isTree_beaconWorld : beaconWorld.files.IsTree :=
  isTree_of_parents (by simp [beaconWorld, node?, lookupEntry])

/-- What becomes of the scaffold that was filled in. -/
theorem runs_beacon :
    (realRun beaconWorld {} cleaning beaconProject beaconArtifacts).failure.isNone = true ∧
      "generated/beacon_impl.h" ∈
        (realRun beaconWorld {} cleaning beaconProject beaconArtifacts).changes.filterMap
          Change.written? ∧
      "generated/beacon_impl.h" ∉
        (dryRun beaconWorld cleaning beaconProject beaconArtifacts).filterMap Preview.written? := by
  decide +kernel

theorem failure_beacon : (generate beaconWorld {} "beacon.yaml" cleaning).failure = none := by
  rw [(generate_real (by decide) prepare_beacon rfl).1, Option.isNone_iff_eq_none.mp runs_beacon.1]

theorem dryRun_lists_written_beacon :
    beaconWorld.files.IsTree ∧ (generate beaconWorld {} "beacon.yaml" cleaning).failure = none ∧
      ∃ p artifacts, prepare beaconWorld "beacon.yaml" cleaning = .ok (p, artifacts) ∧
        ((generate beaconWorld {} "beacon.yaml" { cleaning with dryRun := true }).previews.filterMap
            Preview.written? =
          (generate beaconWorld {} "beacon.yaml" cleaning).changes.filterMap Change.written? ↔
        ∀ a ∈ artifacts, a.isScaffold = true →
          a.Predicted cleaning artifacts beaconWorld.files) := by
  obtain ⟨p, artifacts, hprepare, -, -, hagree⟩ :=
    dryRun_lists_written_iff isTree_beaconWorld rfl failure_beacon
  exact ⟨isTree_beaconWorld, failure_beacon, p, artifacts, hprepare, hagree⟩

/-- **A dry run that is wrong.** The scaffold that was filled in is listed as kept, and the run
removes it with the output directory and writes it anew. -/
theorem dryRun_hides_loss :
    (generate beaconWorld {} "beacon.yaml" cleaning).failure = none ∧
      "generated/beacon_impl.h" ∈
        (generate beaconWorld {} "beacon.yaml" cleaning).changes.filterMap Change.written? ∧
      "generated/beacon_impl.h" ∉
        (generate beaconWorld {} "beacon.yaml" { cleaning with dryRun := true }).previews.filterMap
          Preview.written? := by
  rw [(generate_real (by decide) prepare_beacon rfl).2, generate_dry (by decide) prepare_beacon]
  exact ⟨failure_beacon, runs_beacon.2⟩

end Bindery
