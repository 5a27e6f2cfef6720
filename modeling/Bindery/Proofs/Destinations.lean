import Bindery.Output
import Bindery.Proofs.Emission
import Bindery.Proofs.Paths

/-!
# Where artifacts go

Every emitter chooses the paths of its artifacts for itself, from the name of the description, the
same name in Pascal case, and fixed texts. Some artifacts go into the output directory and others
beside it, and the two directories may be one or lie in each other. What comes out of this is
collected in a table (`Emitter.files`):

* `located_sublist_files` — an emitter makes the files of its row, or some of them.

The rest is read off the table. Two files of one run have different last names, whatever the
description is called: where they begin alike their endings differ, and otherwise neither ending
is the end of the other (`FilePlace.Apart`, `nodup_fileNames`). The last name of a destination is
that of the artifact's path, so no directory can make two destinations one:

* `destinations_apart` — the destinations of a run are distinct and lie where they should.
-/

namespace Bindery

/-! ### The table of files -/

/-- What the name of a file begins with. -/
inductive Stem where
  /-- The name of the description. -/
  | api
  /-- The same in Pascal case. -/
  | pascal
  /-- Nothing that depends on the description. -/
  | fixed
deriving DecidableEq

def Stem.text (ctx : Context) : Stem → String
  | api => ctx.apiName
  | pascal => ctx.pascalApi
  | fixed => ""

/-- A file that an emitter makes. -/
structure FilePlace where
  /-- The directory that the emitter asks for. -/
  folder : Option String := none
  stem : Stem
  ending : String
  isProjectFile : Bool := false
deriving DecidableEq

namespace FilePlace

/-- The last name of the file. -/
def name (f : FilePlace) (ctx : Context) : String := f.stem.text ctx ++ f.ending

def path (f : FilePlace) (ctx : Context) : String :=
  match f.folder with
  | none => f.name ctx
  | some folder => folder ++ "/" ++ f.name ctx

end FilePlace

/-- **The files of each emitter.** -/
def Emitter.files : Emitter → List FilePlace
  | cHeader => [{ stem := .api, ending := ".h" }]
  | kotlin => [{ stem := .pascal, ending := ".kt" }, { stem := .api, ending := "_jni.c" }]
  | swift => [{ stem := .pascal, ending := ".swift" }]
  | javaScript => [{ stem := .api, ending := ".js" }]
  | cppSkeleton =>
    [{ stem := .api, ending := "_interface.h" }, { stem := .api, ending := "_shim.cpp" },
      { stem := .api, ending := "_impl.h" }, { stem := .api, ending := "_impl.cpp" },
      { stem := .fixed, ending := "CMakeLists.txt" }]
  | rustSkeleton =>
    [{ stem := .api, ending := "_trait.rs" }, { stem := .api, ending := "_ffi.rs" },
      { stem := .api, ending := "_types.rs" },
      { folder := some "src", stem := .api, ending := "_impl.rs", isProjectFile := true },
      { folder := some "src", stem := .fixed, ending := "lib.rs", isProjectFile := true },
      { stem := .fixed, ending := "Cargo.toml", isProjectFile := true }]
  | goSkeleton =>
    [{ stem := .api, ending := "_interface.go" }, { stem := .api, ending := "_cgo.go" },
      { stem := .api, ending := "_types.go" },
      { stem := .api, ending := "_impl.go", isProjectFile := true },
      { stem := .fixed, ending := "go.mod", isProjectFile := true },
      { stem := .fixed, ending := ".gitignore", isProjectFile := true }]
  | goWasm => [{ stem := .api, ending := "_wasm.go" }]
  | cBuild =>
    [{ stem := .fixed, ending := "Makefile", isProjectFile := true },
      { stem := .api, ending := "_impl.c", isProjectFile := true },
      { stem := .fixed, ending := "CMakeLists.txt", isProjectFile := true }]
  | cppBuild | rustBuild | goBuild =>
    [{ stem := .fixed, ending := "Makefile", isProjectFile := true }]
  | platformServices =>
    [Platform.desktop, .ios, .android, .web].map fun p =>
      { folder := some Platform.servicesDir, stem := .fixed, ending := p.family ++ ".c",
        isProjectFile := true }

/-- Where an artifact goes, the output directory apart. -/
def Artifact.located (a : Artifact) : String × Bool := (a.path, a.isProjectFile)

def FilePlace.located (f : FilePlace) (ctx : Context) : String × Bool :=
  (f.path ctx, f.isProjectFile)

/-- The families of platforms, in a fixed order. -/
theorem ofTargets_sublist (targets : List Target) :
    (Platform.ofTargets targets).Sublist [.desktop, .ios, .android, .web] := by
  unfold Platform.ofTargets
  split <;> split <;> split <;> split <;> decide

/-- **An emitter makes the files of its row, or some of them.** -/
theorem located_sublist_files {e : Emitter} {ctx : Context} {artifacts : List Artifact}
    (h : e.artifacts ctx = .ok artifacts) :
    (artifacts.map Artifact.located).Sublist (e.files.map (·.located ctx)) := by
  cases e with
  | cHeader =>
    obtain ⟨code, -, h⟩ := bind_eq_ok_iff.mp h
    obtain rfl := Except.ok.inj h
    exact List.Sublist.refl _
  | kotlin =>
    obtain ⟨source, -, h⟩ := bind_eq_ok_iff.mp h
    obtain ⟨bridge, -, h⟩ := bind_eq_ok_iff.mp h
    obtain rfl := Except.ok.inj h
    exact List.Sublist.refl _
  | swift =>
    obtain ⟨source, -, h⟩ := bind_eq_ok_iff.mp h
    obtain rfl := Except.ok.inj h
    exact List.Sublist.refl _
  | javaScript =>
    obtain ⟨m, -, h⟩ := bind_eq_ok_iff.mp h
    obtain rfl := Except.ok.inj h
    exact List.Sublist.refl _
  | cppSkeleton =>
    obtain ⟨vs, -, h⟩ := bind_eq_ok_iff.mp h
    obtain ⟨shim, -, h⟩ := bind_eq_ok_iff.mp h
    obtain rfl := Except.ok.inj h
    exact List.Sublist.refl _
  | rustSkeleton =>
    obtain ⟨modules, -, h⟩ := bind_eq_ok_iff.mp h
    obtain ⟨ts, -, h⟩ := bind_eq_ok_iff.mp h
    obtain ⟨es, -, h⟩ := bind_eq_ok_iff.mp h
    have hfolder : "src/" ++ ctx.apiName ++ "_impl.rs" = "src" ++ "/" ++ (ctx.apiName ++ "_impl.rs") :=
      (String.append_assoc ..).trans rfl
    dsimp only at h
    -- without types there is no file for them
    split at h
    · obtain rfl := Except.ok.inj h
      rw [hfolder]
      exact (List.Sublist.refl _).cons _ |>.cons_cons _ |>.cons_cons _
    · obtain ⟨ds, -, h⟩ := bind_eq_ok_iff.mp h
      obtain rfl := Except.ok.inj h
      rw [hfolder]
      exact List.Sublist.refl _
  | goSkeleton =>
    obtain ⟨decls, -, h⟩ := bind_eq_ok_iff.mp h
    obtain ⟨exports, -, h⟩ := bind_eq_ok_iff.mp h
    obtain ⟨impls, -, h⟩ := bind_eq_ok_iff.mp h
    obtain rfl := Except.ok.inj h
    split
    · exact (List.Sublist.refl _).cons _ |>.cons_cons _ |>.cons_cons _
    · exact List.Sublist.refl _
  | goWasm =>
    obtain ⟨f, -, h⟩ := bind_eq_ok_iff.mp h
    obtain rfl := Except.ok.inj h
    exact List.Sublist.refl _
  | cBuild =>
    obtain ⟨stubs, -, h⟩ := bind_eq_ok_iff.mp h
    obtain rfl := Except.ok.inj h
    exact List.Sublist.refl _
  | cppBuild | rustBuild | goBuild =>
    obtain rfl := Except.ok.inj h
    exact List.Sublist.refl _
  | platformServices =>
    obtain rfl := Except.ok.inj h
    rw [List.map_map]
    exact (ofTargets_sublist ctx.api.effectiveTargets).map _

/-! ### File names -/

/-- **Two files that differ whatever the description is called.** -/
def FilePlace.Apart (f g : FilePlace) : Prop :=
  if f.stem = g.stem then f.ending ≠ g.ending
  else ¬ f.ending.toList <:+ g.ending.toList ∧ ¬ g.ending.toList <:+ f.ending.toList

instance (f g : FilePlace) : Decidable (f.Apart g) := inferInstanceAs (Decidable (ite _ _ _))

theorem FilePlace.Apart.name_ne {f g : FilePlace} (h : f.Apart g) (ctx : Context) :
    f.name ctx ≠ g.name ctx := by
  intro hname
  rw [← String.toList_inj, name, name, String.toList_append, String.toList_append] at hname
  rw [Apart] at h
  split at h
  next hstem =>
    rw [hstem, List.append_cancel_left_eq] at hname
    exact h (String.toList_inj.mp hname)
  next =>
    -- of two ends of one text, the shorter is the end of the longer
    have hf : f.ending.toList <:+ (g.stem.text ctx).toList ++ g.ending.toList := ⟨_, hname⟩
    rcases List.suffix_or_suffix_of_suffix hf (List.suffix_append _ _) with hsuffix | hsuffix
    · exact h.1 hsuffix
    · exact h.2 hsuffix

/-- The emitters that may run together for a language. -/
def Language.companions (language : Language) : List Emitter :=
  [.cHeader, .kotlin, .swift, .javaScript, .goWasm] ++ language.emitters

/-- The files that one language may bring about. -/
theorem pairwise_apart (language : Language) :
    (language.companions.flatMap Emitter.files).Pairwise FilePlace.Apart := by
  cases language <;> decide +kernel

/-- Whatever is planned may run together. -/
theorem plan_subset_companions (targets : List Target) (language : Language) :
    plan targets language ⊆ language.companions := by
  -- By the four places a planned emitter comes from.
  intro e he
  rw [plan, Text.mem_distinct_iff] at he
  simp only [List.mem_append, List.mem_singleton, List.mem_filterMap] at he
  rw [Language.companions, List.mem_append]
  rcases he with ((rfl | ⟨target, -, he⟩) | he) | he
  · exact .inl (by decide)
  · cases target <;> cases he <;> exact .inl (by decide)
  · exact .inr he
  · split at he
    · obtain rfl := List.mem_singleton.mp he
      exact .inl (by decide)
    · cases he

/-- **Emitters that run together make files with different names.** -/
theorem nodup_fileNames (ctx : Context) {es : List Emitter} {language : Language}
    (hes : es.Nodup) (hsubset : es ⊆ language.companions) :
    (es.flatMap fun e => e.files.map (·.name ctx)).Nodup := by
  -- All emitters of the language together have distinct files, so the planned ones have, too.
  have hall : (language.companions.flatMap fun e => e.files.map (·.name ctx)).Nodup := by
    rw [← List.map_flatMap, List.Nodup, List.pairwise_map]
    exact (pairwise_apart language).imp fun h => h.name_ne ctx
  rw [List.nodup_flatMap] at hall ⊢
  obtain ⟨heach, hpairs⟩ := hall
  refine ⟨fun e he => heach e (hsubset he), ?_⟩
  refine hes.pairwise_of_forall_ne fun e he e' he' hne => ?_
  have : Std.Symm (Function.onFun List.Disjoint fun e : Emitter => e.files.map (·.name ctx)) :=
    ⟨fun _ _ h => h.symm⟩
  exact hpairs.forall (hsubset he) (hsubset he') hne

/-- A file of the table has a name, and so has the directory that is asked for. -/
theorem isName_of_mem_files (e : Emitter) : ∀ f ∈ e.files,
    '/' ∉ f.ending.toList ∧ (f.stem = .fixed → Path.IsName f.ending) ∧
      ∀ folder ∈ f.folder, Path.IsName folder := by
  cases e <;> decide +kernel

section Named

variable {ctx : Context} (hname : isSnakeIdentifier ctx.apiName = true)

include hname

theorem isPlain_stem {stem : Stem} (h : stem ≠ .fixed) : IsPlain (stem.text ctx) := by
  cases stem with
  | api => exact isPlain_of_isSnakeIdentifier hname
  | pascal => exact isPlain_pascalCase hname
  | fixed => exact absurd rfl h

/-- **The name of a file is a name in a path.** -/
theorem isName_name {e : Emitter} {f : FilePlace} (hf : f ∈ e.files) :
    Path.IsName (f.name ctx) := by
  obtain ⟨hending, hfixed, -⟩ := isName_of_mem_files e f hf
  by_cases hstem : f.stem = .fixed
  · rw [FilePlace.name, hstem, Stem.text, String.empty_append]
    exact hfixed hstem
  · obtain ⟨⟨c, hc, hstart⟩, htail⟩ := isPlain_stem hname hstem
    -- the first character is a letter or an underscore, so the name is made of more than dots
    have hhead : (f.name ctx).toList.head? = some c := by
      rw [FilePlace.name, String.toList_append, List.head?_append, hc, Option.some_or]
    have hdot : c ≠ '.' := by
      rintro rfl
      exact absurd hstart (by decide)
    refine ⟨?_, ?_, ?_⟩
    · rw [FilePlace.name, String.toList_append, List.mem_append, not_or]
      exact ⟨fun hslash => absurd (htail _ hslash) (by decide), hending⟩
    · rw [Path.isVoid, Bool.or_eq_false_iff, decide_eq_false_iff_not, decide_eq_false_iff_not]
      refine ⟨?_, ?_⟩
      · intro hempty
        rw [hempty] at hhead
        cases hhead
      · intro hsingle
        rw [hsingle] at hhead
        exact hdot (Option.some.inj hhead).symm
    · intro hup
      rw [hup] at hhead
      exact hdot (Option.some.inj hhead).symm

/-- A file is found under its name, in the directory that is asked for. -/
theorem names_path {e : Emitter} {f : FilePlace} (hf : f ∈ e.files) :
    Path.names (f.path ctx) = f.folder.toList ++ [f.name ctx] := by
  obtain ⟨hslash, hvoid, -⟩ := isName_name hname hf
  have hlast := Path.names_of_piece hslash hvoid
  rw [FilePlace.path]
  cases hfolder : f.folder with
  | none => exact hlast
  | some folder =>
    obtain ⟨hslash', hvoid', -⟩ := (isName_of_mem_files e f hf).2.2 folder hfolder
    rw [Path.names_append_slash, hlast, Path.names_of_piece hslash' hvoid']
    rfl

theorem isAbsolute_path {e : Emitter} {f : FilePlace} (hf : f ∈ e.files) :
    Path.isAbsolute (f.path ctx) = false := by
  rw [FilePlace.path]
  cases hfolder : f.folder with
  | none =>
    have h := (isName_name hname hf).isAbsolute_append ""
    rwa [String.append_empty] at h
  | some folder =>
    change Path.isAbsolute (folder ++ "/" ++ f.name ctx) = false
    rw [String.append_assoc]
    exact ((isName_of_mem_files e f hf).2.2 folder hfolder).isAbsolute_append _

end Named

/-! ### Runs -/

/-- One emitter after the other adds its row. -/
theorem located_sublist_flatten {es : List Emitter} {ctx : Context} {made : List (List Artifact)}
    (h : List.Forall₂ (fun e artifacts => e.emit ctx = .ok artifacts) es made) :
    (made.flatten.map Artifact.located).Sublist
      (es.flatMap fun e => e.files.map (·.located ctx)) := by
  induction h with
  | nil => exact List.Sublist.refl _
  | cons hrun _ ih =>
    rw [List.flatten_cons, List.map_append, List.flatMap_cons]
    exact (located_sublist_files (mapError_eq_ok_iff.mp hrun)).append ih

/-- **The artifacts of a run, in the order of the table.** -/
theorem located_sublist_run {ctx : Context} {artifacts : List Artifact}
    (h : emitPlanned ctx = .ok artifacts) :
    (artifacts.map Artifact.located).Sublist
      ((plan ctx.api.effectiveTargets ctx.api.metadata.language).flatMap fun e =>
        e.files.map (·.located ctx)) := by
  obtain ⟨made, hmade, hflatten⟩ := bind_eq_ok_iff.mp h
  rw [← Except.ok.inj hflatten]
  exact located_sublist_flatten (mapM_eq_ok_iff.mp hmade)

section Run

variable {ctx : Context} {artifacts : List Artifact}
  (hname : isSnakeIdentifier ctx.apiName = true) (hrun : emitPlanned ctx = .ok artifacts)

include hrun

/-- Every artifact of a run is one of the files of an emitter. -/
theorem exists_file_of_mem {a : Artifact} (ha : a ∈ artifacts) :
    ∃ (e : Emitter) (f : FilePlace), f ∈ e.files ∧ a.path = f.path ctx := by
  have hmem := (located_sublist_run hrun).subset (List.mem_map_of_mem ha)
  obtain ⟨e, -, hfiles⟩ := List.mem_flatMap.mp hmem
  obtain ⟨f, hf, heq⟩ := List.mem_map.mp hfiles
  exact ⟨e, f, hf, (congrArg Prod.fst heq).symm⟩

include hname

/-- **The path of an artifact leads down**: it is relative and has names, none of which leads
up. -/
theorem path_leads_down {a : Artifact} (ha : a ∈ artifacts) :
    Path.isAbsolute a.path = false ∧ Path.names a.path ≠ [] ∧ ".." ∉ Path.names a.path := by
  obtain ⟨e, f, hf, hpath⟩ := exists_file_of_mem hrun ha
  rw [hpath, names_path hname hf]
  refine ⟨isAbsolute_path hname hf, by simp, ?_⟩
  rw [List.mem_append, List.mem_singleton, Option.mem_toList]
  rintro (hfolder | hlast)
  · exact ((isName_of_mem_files e f hf).2.2 _ hfolder).2.2 rfl
  · exact (isName_name hname hf).2.2 hlast.symm

/-- **The last names of all paths of a run are distinct.** -/
theorem nodup_lastNames : (artifacts.map fun a => (Path.names a.path).getLast?).Nodup := by
  have hsublist := (located_sublist_run hrun).map fun l => (Path.names l.1).getLast?
  -- The last name of a path is the name of its file, whatever directories stand before it.
  have htable : ∀ es : List Emitter,
      (es.flatMap fun e => e.files.map (·.located ctx)).map (fun l => (Path.names l.1).getLast?) =
        (es.flatMap fun e => e.files.map (·.name ctx)).map some := by
    intro es
    simp only [List.map_flatMap, List.map_map]
    refine List.flatMap_congr fun e _ => List.map_congr_left fun f hf => ?_
    change (Path.names (f.path ctx)).getLast? = some (f.name ctx)
    rw [names_path hname hf, List.getLast?_append, List.getLast?_singleton, Option.some_or]
  rw [htable, List.map_map] at hsublist
  refine hsublist.nodup (List.Nodup.map (Option.some_injective _) ?_)
  exact nodup_fileNames ctx (Text.nodup_distinct _) (plan_subset_companions _ _)

end Run

/-- The directory that an artifact is put in. -/
def Artifact.root (a : Artifact) (outputDir : String) : String :=
  if a.isProjectFile then (Path.parent? outputDir).getD "" else outputDir

theorem Artifact.destination_eq (a : Artifact) (outputDir : String) :
    a.destination outputDir = Path.join (a.root outputDir) a.path := by
  rw [destination, root]
  split <;> rfl

/-- An output directory that is accepted does not lead up. -/
theorem not_mem_names_of_checkOutputDir {dir : String} (h : checkOutputDir dir = .ok ()) :
    ".." ∉ Path.names dir := by
  intro hup
  rw [checkOutputDir, Path.hasTraversal, if_pos (List.contains_iff_mem.mpr hup)] at h
  cases h

/-- An output directory that does not lead up has a parent that does not. -/
theorem not_mem_names_root {dir : String} (h : checkOutputDir dir = .ok ()) (a : Artifact) :
    ".." ∉ Path.names (a.root dir) := by
  have hdir := not_mem_names_of_checkOutputDir h
  rw [Artifact.root]
  -- The project directory is the parent, and its names are among those of the output directory.
  split
  · cases hparent : Path.parent? dir with
    | none => decide
    | some parent =>
      obtain ⟨rest, hnames⟩ := Path.exists_names_parent? hparent
      intro hup
      exact hdir (hnames ▸ List.mem_append_left rest hup)
  · exact hdir

/-- **A run writes no file twice and stays in its project.** -/
theorem destinations_apart {ctx : Context} {artifacts : List Artifact} {dir : String}
    (hname : Shape.snakePattern.matchesList ctx.api.name.toList = true)
    (hrun : emitPlanned ctx = .ok artifacts) (hdir : checkOutputDir dir = .ok ()) :
    (artifacts.map fun a => Path.place (a.destination dir)).Nodup ∧
      ∀ a ∈ artifacts, ".." ∉ Path.names (a.destination dir) ∧
        (a.isProjectFile = false → Path.Inside dir (a.destination dir)) ∧
        (a.isProjectFile = true →
          Path.Inside ((Path.parent? dir).getD "") (a.destination dir)) := by
  rw [Pattern.matchesList_snakePattern] at hname
  have hnames : ∀ a ∈ artifacts,
      Path.names (a.destination dir) = Path.names (a.root dir) ++ Path.names a.path := by
    intro a ha
    rw [a.destination_eq, Path.names_join (path_leads_down hname hrun ha).1]
  have hinside : ∀ a ∈ artifacts, Path.Inside (a.root dir) (a.destination dir) := by
    intro a ha
    obtain ⟨hrelative, hpath, -⟩ := path_leads_down hname hrun ha
    rw [a.destination_eq]
    exact Path.inside_join hrelative hpath _
  refine ⟨?_, fun a ha => ⟨?_, fun hproject => ?_, fun hproject => ?_⟩⟩
  · -- two destinations that are one would have one last name
    refine List.Nodup.of_map (fun place => place.2.getLast?) ?_
    rw [List.map_map]
    have hlast : ∀ a ∈ artifacts,
        (Path.names (a.destination dir)).getLast? = (Path.names a.path).getLast? := by
      intro a ha
      obtain ⟨-, hpath, -⟩ := path_leads_down hname hrun ha
      rw [hnames a ha, List.getLast?_append_of_ne_nil _ hpath]
    have heq := List.map_congr_left hlast
    exact heq ▸ nodup_lastNames hname hrun
  · rw [hnames a ha, List.mem_append, not_or]
    exact ⟨not_mem_names_root hdir a, (path_leads_down hname hrun ha).2.2⟩
  · have h := hinside a ha
    rwa [Artifact.root, if_neg (by simp [hproject])] at h
  · have h := hinside a ha
    rwa [Artifact.root, if_pos hproject] at h

/-- The emitters of Go and of all platforms write the shelf. -/
theorem exists_artifacts_shelf : ∃ artifacts, emitPlanned shelfContext = .ok artifacts := by
  have hvalid : shelfContext.api.validate (some shelfTypes) = [] := by decide
  refine succeeds_emitPlanned_iff.mpr fun e _ => ?_
  rw [succeeds_artifacts_iff (Validate.conforms_of_validate hvalid)
    ((snakeNamed_of_ofDocument shelf_document).override _ _) shelf_read.wellNamed]
  exact shelf_canExpress e

/-- An output directory that is called like a directory beside it. -/
theorem destinations_apart_shelf :
    Shape.snakePattern.matchesList shelfContext.api.name.toList = true ∧
      checkOutputDir "platform_services" = .ok () ∧
      ∃ artifacts, emitPlanned shelfContext = .ok artifacts ∧
        (artifacts.map fun a => Path.place (a.destination "platform_services")).Nodup ∧
        ∀ a ∈ artifacts, ".." ∉ Path.names (a.destination "platform_services") := by
  have hname : Shape.snakePattern.matchesList shelfContext.api.name.toList = true := by decide
  have hdir : checkOutputDir "platform_services" = .ok () := by decide
  obtain ⟨artifacts, hrun⟩ := exists_artifacts_shelf
  obtain ⟨hapart, hplaces⟩ := destinations_apart hname hrun hdir
  exact ⟨hname, hdir, artifacts, hrun, hapart, fun a ha => (hplaces a ha).1⟩

end Bindery
