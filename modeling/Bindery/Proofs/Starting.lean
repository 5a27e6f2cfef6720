import Bindery.Command
import Bindery.Proofs.Preview
import Bindery.Proofs.Starter

/-!
# Started projects

Starting a project writes a description and a schema. Loading it looks for the schema beside the
description, by a path that is made up from that of the description, and so need not be the one that
was written to:

* `schemaDir_join`, `locate_beside` — both paths lead to the same place;
* `find_description`, `find_schema` — what is found there is what was written;
* `load_started`, `load_started_reserved` — whether the project loads depends on its name alone.

The main statement is `started_project_valid_unless_reserved`: a new project is valid unless its
name is one of three words that a document does not read as texts. A project that is started and
does not load is `started_project_invalid`.
-/

namespace Bindery

open FileSystem

/-- What a new project loads as, from the directory it is started in. -/
def Starter.project (name : String) (language : Language) (dir : String) : Project where
  source := Path.join dir (name ++ ".yaml")
  api := Starter.api name language
  types := Starter.types
  schemaFiles := [Path.join (schemaDir (Path.join dir (name ++ ".yaml"))) "schemas/types.fbs"]

/-! ### The directory of a description -/

/-- Where schema files are looked for first, by the parent of the path. -/
theorem schemaDir_eq {source parent : String} (h : Path.parent? source = some parent) :
    schemaDir source = if parent = "" then "." else parent := by
  rw [schemaDir, h]
  split
  next heq => rw [if_pos (Option.some.inj heq)]
  next heq => cases heq
  next hne heq =>
    obtain rfl := Option.some.inj heq
    rw [if_neg hne]

section Beside

variable {n : String} (hname : Path.IsName n) (dir : String)

include hname

/-- A path below the parent of a file is not longer than one below the directory that the file was
joined to, unless the parent is the root or the current directory. -/
theorem lead_parent? {parent : String} (hparent : Path.parent? (Path.join dir n) = some parent)
    (hne : parent ≠ "") :
    (Path.lead parent).toList <+: (Path.lead dir).toList ∨ Path.lead parent ∈ ["./", "/"] := by
  obtain ⟨hempty, -⟩ | ⟨xs, ys, last, hys, hsegments, hq⟩ := Path.exists_segments_parent? hparent
  · exact absurd hempty hne
  by_cases hxs : xs = []
  · right
    obtain rfl : parent = (Path.parts (Path.join dir n)).front.text := by
      rw [hq, hxs]
      exact String.append_empty
    generalize (Path.parts (Path.join dir n)).front = front at hne ⊢
    cases front with
    | root | current => decide
    | none => exact absurd rfl hne
  · left
    have hys' : ys ≠ [] := by
      rintro rfl
      cases hys
    -- the slash behind the parent is before the name, which has none
    have htext : Path.lead dir ++ n = parent ++ "/" ++ "/".intercalate ys := by
      rw [← Path.join_eq_append hname.isAbsolute, hq, ← Path.Parts.text_append hxs hys', ← hsegments]
      exact (Path.text_parts _).symm
    have hlists := congrArg String.toList htext
    rw [String.toList_append, String.toList_append] at hlists
    refine (Path.lead_prefix parent).trans ?_
    obtain ⟨between, hslash, hn⟩ | ⟨between, hlead, -⟩ := List.append_eq_append_iff.mp hlists
    · obtain rfl | ⟨front, c, rfl⟩ := between.eq_nil_or_concat
      · rw [hslash, List.append_nil]
      · rw [String.toList_append, List.concat_eq_append, ← List.append_assoc] at hslash
        obtain ⟨-, hc⟩ := List.append_inj' hslash rfl
        obtain rfl : '/' = c := (List.cons.inj hc).1
        exact absurd (by simp [hn]) hname.1
    · exact ⟨between, hlead.symm⟩

/-- **Schema files are looked for beside the description**, in the directory that it is in, however
that is written. -/
theorem schemaDir_join :
    Path.isAbsolute (schemaDir (Path.join dir n)) = Path.isAbsolute dir ∧
      Path.names (schemaDir (Path.join dir n)) = Path.names dir ∧
      ((Path.lead (schemaDir (Path.join dir n))).toList <+: (Path.lead dir).toList ∨
        Path.lead (schemaDir (Path.join dir n)) ∈ ["./", "/"]) := by
  have hnames := hname.names_join dir
  have habsolute := Path.isAbsolute_join hname.isAbsolute dir
  obtain ⟨parent, hparent⟩ := Path.exists_parent? (p := Path.join dir n) (by simp [hnames])
  have hparentNames : Path.names parent = Path.names dir := by
    obtain ⟨-, hnil⟩ | ⟨last, hlast⟩ := Path.names_parent? hparent
    · simp [hnames] at hnil
    · rw [hnames] at hlast
      exact (List.append_inj' hlast rfl).1.symm
  rw [schemaDir_eq hparent]
  split
  next hempty =>
    subst hempty
    -- nothing stands in front of the name, so the path is relative
    have hrelative : Path.isAbsolute dir = false := by
      rw [← habsolute, Path.isAbsolute, decide_eq_false_iff_not]
      intro hroot
      obtain ⟨-, hfront, -⟩ | ⟨xs, ys, last, -, -, hq⟩ := Path.exists_segments_parent? hparent
      · rw [hroot] at hfront
        cases hfront
      · rw [Path.Parts.text, hroot] at hq
        have hlist := congrArg String.toList hq
        simp [String.toList_append, Path.Front.text] at hlist
    exact ⟨hrelative.symm, by rw [← hparentNames]; decide, .inr (by decide)⟩
  next hne =>
    refine ⟨?_, hparentNames, lead_parent? hname dir hparent hne⟩
    rw [← habsolute]
    exact Path.isAbsolute_of_beginning (Path.beginning_of_parent? hparent) hne

end Beside

/-- The path of the schema, as it is written and as the description names it. -/
theorem join_schema (dir : String) :
    Path.join (Path.join dir "schemas") "types.fbs" = Path.join dir "schemas/types.fbs" ∧
      Path.join dir "schemas/types.fbs" = Path.lead dir ++ "schemas" ++ "/" ++ "types.fbs" := by
  have hnamed : Path.join dir "schemas/types.fbs" =
      Path.lead dir ++ "schemas" ++ "/" ++ "types.fbs" := by
    rw [Path.join_eq_append (by decide), String.append_assoc, String.append_assoc]
    rfl
  refine ⟨?_, hnamed⟩
  rw [hnamed, Path.join_eq_append (by decide), Path.join_eq_append (by decide),
    Path.lead_append (by decide) (by decide)]

/-- **Beside the description the schema is found** where it was written. -/
theorem locate_beside {n : String} (hname : Path.IsName n) {dir : String} {fs : FileSystem}
    {l : Location} (h : fs.locate (Path.join dir "schemas/types.fbs") = .ok l) :
    fs.locate (Path.join (schemaDir (Path.join dir n)) "schemas/types.fbs") = .ok l := by
  obtain ⟨habsolute, hnames, hlead⟩ := schemaDir_join hname dir
  generalize schemaDir (Path.join dir n) = beside at habsolute hnames hlead ⊢
  -- the path is part of the one that was written, or it is short
  have hcheck : checkPath (Path.join beside "schemas/types.fbs") = .ok () := by
    obtain ⟨hzero, -, hsize⟩ := checkPath_eq_ok_iff.mp (locate_eq_ok h).1
    rw [(join_schema dir).2] at hzero hsize
    rw [(join_schema beside).2, checkPath_eq_ok_iff]
    obtain ⟨rest, hrest⟩ | hshort := hlead
    · obtain hdir : Path.lead beside ++ String.ofList rest = Path.lead dir := by
        rw [← String.toList_inj, String.toList_append, String.toList_ofList, hrest]
      rw [← hdir] at hzero hsize
      simp only [String.toList_append, List.mem_append, not_or] at hzero ⊢
      simp only [String.utf8ByteSize_append] at hsize ⊢
      refine ⟨⟨⟨⟨hzero.1.1.1.1, hzero.1.1.2⟩, hzero.1.2⟩, hzero.2⟩, ?_, by omega⟩
      rw [← String.toList_eq_nil_iff.ne]
      simp [String.toList_append]
    · simp only [List.mem_cons, List.not_mem_nil, or_false] at hshort
      obtain hshort | hshort := hshort
      all_goals
        rw [hshort]
        decide
  -- both paths begin at the same place and have the same names
  have hstart : fs.start (Path.join beside "schemas/types.fbs") =
      fs.start (Path.join dir "schemas/types.fbs") := by
    rw [FileSystem.start, FileSystem.start, Path.isAbsolute_join (by decide),
      Path.isAbsolute_join (by decide), habsolute]
  have hsame : Path.names (Path.join beside "schemas/types.fbs") =
      Path.names (Path.join dir "schemas/types.fbs") := by
    rw [Path.names_join (by decide), Path.names_join (by decide), hnames]
  have hne : Path.lead beside ++ "schemas" ≠ "" := by
    rw [← String.toList_eq_nil_iff.ne]
    simp [String.toList_append]
  obtain ⟨front, hfront⟩ :=
    Path.exists_segments_append_slash (s := "types.fbs") hne (by decide)
  rw [← (join_schema beside).2] at hfront
  exact locate_of_names h hcheck hstart hsame hfront (by decide)

/-! ### What is written -/

section Started

variable {w : World} {v : Verbosity} {name dir : String} {language : Language}
  (h : (start w v name language dir).failure = none)

include h

/-- The run of a start without a failure. -/
theorem start_eq_none :
    Starter.isApiName name = true ∧ ∃ fs₁ fs₂ : FileSystem,
      fs₁.write (Path.join dir (name ++ ".yaml")) (Starter.description name language).toUTF8 =
        .ok fs₂ ∧
      fs₂.write (Path.join (Path.join dir "schemas") "types.fbs") Starter.schema.toUTF8 =
        .ok (start w v name language dir).files := by
  -- whatever fails ends the run, so no step has failed
  unfold Bindery.start at h ⊢
  split at h
  next => cases h
  next hname =>
    rw [Bool.not_eq_true, Bool.not_eq_false'] at hname
    rw [if_neg (by simp [hname])]
    dsimp only at h ⊢
    split at h
    next => cases h
    next hfree =>
      split at h
      next => cases h
      next fs₁ hmade =>
        refine ⟨hname, fs₁, ?_⟩
        simp only [Starter.files, Starter.writeFiles] at h ⊢
        cases hdescription : fs₁.write (Path.join dir (name ++ ".yaml"))
            (Starter.description name language).toUTF8 with
        | error e =>
          rw [hdescription] at h
          cases h
        | ok fs₂ =>
          rw [hdescription] at h
          dsimp only at h ⊢
          cases hschema : fs₂.write (Path.join (Path.join dir "schemas") "types.fbs")
              Starter.schema.toUTF8 with
          | error e =>
            rw [hschema] at h
            cases h
          | ok fs₃ => exact ⟨fs₂, rfl, hschema⟩

/-- The description is called by a name. -/
theorem isName_descriptionFile : Path.IsName (name ++ ".yaml") := by
  obtain ⟨c, cs, hcs, hc, hrest⟩ := Starter.exists_lower (start_eq_none h).1
  have hlist : (name ++ ".yaml").toList = c :: (cs ++ ".yaml".toList) := by
    rw [String.toList_append, hcs, List.cons_append]
  -- The name begins with a small letter, and no special name does.
  have hne : ∀ {s : String}, s.toList.head? ≠ some c → name ++ ".yaml" ≠ s := by
    rintro _ hs rfl
    exact hs (by rw [hlist]; rfl)
  have hdot : ∀ d : Char, d.isLower = false → d ≠ c := by
    rintro d hd rfl
    rw [hc] at hd
    cases hd
  have hpoint : ('.' : Char) ≠ c := hdot '.' (by decide)
  refine ⟨?_, ?_, hne (by simpa using hpoint)⟩
  · rw [hlist, List.mem_cons, List.mem_append, not_or, not_or]
    refine ⟨hdot '/' (by decide), fun hmem => ?_, by decide⟩
    obtain hd | hd | hd := hrest _ hmem <;> cases hd
  · rw [Path.isVoid, Bool.or_eq_false_iff, decide_eq_false_iff_not, decide_eq_false_iff_not]
    exact ⟨hne (by simp), hne (by simpa using hpoint)⟩

/-- The description and the schema are different files. -/
theorem target_description_ne (fs : FileSystem) :
    fs.target (Path.join dir (name ++ ".yaml")) ≠
      fs.target (Path.join (Path.join dir "schemas") "types.fbs") := by
  have hname := isName_descriptionFile h
  have hlast : ∀ {p n : String} {names : List String}, Path.names p = names ++ [n] → n ≠ ".." →
      (fs.target p).getLast? = some n := by
    intro p n names hp hn
    rw [target, hp, resolve, List.foldl_append]
    simp [stepTo, hn]
  -- One of the two ends in `yaml` and the other in `fbs`.
  intro heq
  have hdescription := hlast (hname.names_join dir) hname.2.2
  have htypes : Path.IsName "types.fbs" := by decide
  have hschema := hlast (htypes.names_join (Path.join dir "schemas")) htypes.2.2
  rw [heq, hschema] at hdescription
  have hends := congrArg (List.getLast? ∘ String.toList) (Option.some.inj hdescription)
  simp [String.toList_append] at hends

/-- **The description is found as it was written.** -/
theorem find_description :
    (start w v name language dir).files.find (Path.join dir (name ++ ".yaml")) =
      .ok (.file (Starter.description name language).toUTF8) := by
  obtain ⟨-, fs₁, fs₂, hdescription, hschema⟩ := start_eq_none h
  refine (write_grows hschema).find_of_not_mem (find_of_write hdescription) ?_
  exact target_description_ne h fs₂

/-- **So is the schema**, by the path that a reader of the description makes up. -/
theorem find_schema :
    (start w v name language dir).files.find
        (Path.join (schemaDir (Path.join dir (name ++ ".yaml"))) "schemas/types.fbs") =
      .ok (.file Starter.schema.toUTF8) := by
  obtain ⟨-, fs₁, fs₂, -, hschema⟩ := start_eq_none h
  obtain ⟨hlocate, hnode⟩ := find_eq_ok_iff.mp (find_of_write hschema)
  rw [(join_schema dir).1] at hlocate hnode
  have hfound := locate_beside (isName_descriptionFile h) hlocate
  obtain ⟨-, -, htarget⟩ := locate_eq_ok hfound
  rw [find_eq_ok_iff, ← htarget]
  exact ⟨hfound, hnode⟩

/-- The description is not too large to be read: its name is that of a file. -/
theorem size_description :
    (Starter.description name language).toUTF8.size ≤ maxDescriptionSize := by
  obtain ⟨hlocate, -⟩ := find_eq_ok_iff.mp (find_description h)
  obtain ⟨-, hopen, -⟩ := locate_eq_ok hlocate
  have hname := isName_descriptionFile h
  rw [hname.names_join, open_append_iff] at hopen
  obtain ⟨-, -, hup | hshort, -⟩ := hopen
  · exact absurd hup hname.2.2
  -- The name is short since its file was found, and the rest of the text is of one size.
  obtain ⟨k, hk, hsize⟩ := Starter.exists_utf8ByteSize_description
  have hlanguage : language.name.utf8ByteSize ≤ 4 := by cases language <;> decide
  have hsum := hsize name language
  rw [String.utf8ByteSize_append, maxName] at hshort
  change (Starter.description name language).utf8ByteSize ≤ 8 * 1024 * 1024
  omega

/-! ### What is loaded -/

/-- The description is read. -/
theorem ofFile_started {a : Api} (hyaml : Api.ofYaml (Starter.description name language) = .ok a) :
    Api.ofFile (start w v name language dir).files (Path.join dir (name ++ ".yaml")) = .ok a :=
  ofFile_of_find (find_description h) (size_description h) hyaml

/-- Its schema is found, and it has the types of the starter. -/
theorem ofFiles_started :
    let files := (start w v name language dir).files
    let beside := schemaDir (Path.join dir (name ++ ".yaml"))
    let dirs := searchDirs (Path.join dir (name ++ ".yaml")) w.programDir
    Schema.findFile files dirs "schemas/types.fbs" = .ok (Path.join beside "schemas/types.fbs") ∧
      Schema.ofFiles files dirs ["schemas/types.fbs"] = .ok Starter.types := by
  intro files beside dirs
  have hfind := find_schema h
  -- the directory beside the description is searched first, whether there is another or not
  obtain ⟨others, hdirs⟩ : ∃ others, dirs = beside :: others := by
    by_cases hsame : beside = w.programDir
    · exact ⟨[], by simp [dirs, searchDirs, Text.distinct, beside, hsame]⟩
    · exact ⟨[w.programDir],
        by simpa [dirs, searchDirs, Text.distinct, beside, eq_comm] using hsame⟩
  have hfound : Schema.findFile files dirs "schemas/types.fbs" =
      .ok (Path.join beside "schemas/types.fbs") := by
    have hfile : files.isFile (Path.join beside "schemas/types.fbs") = true := by
      rw [isFile, hfind]
    rw [Schema.findFile, if_neg (by decide), hdirs, List.map_cons, List.find?_cons_of_pos hfile]
  refine ⟨hfound, ?_⟩
  -- what the file holds is one enumeration
  have hadded : Schema.addFile files dirs Keyed.empty "schemas/types.fbs" =
      .ok (Keyed.empty.insert "Common.ErrorCode" Starter.errorCode) := by
    refine bind_eq_ok_iff.mpr ⟨_, hfound, ?_⟩
    refine bind_eq_ok_iff.mpr ⟨_, mapError_eq_ok_iff.mpr (readText_of_find hfind), ?_⟩
    rw [Starter.definitionsIn_schema]
    rfl
  refine bind_eq_ok_iff.mpr ⟨_, bind_eq_ok_iff.mpr ⟨_, hadded, rfl⟩, rfl⟩

/-- **A project whose name is not reserved loads.** -/
theorem load_started (hfree : name ∉ Starter.reserved) :
    Project.load (start w v name language dir).files w.programDir
        (Path.join dir (name ++ ".yaml")) {} = .ok (Starter.project name language dir) := by
  obtain ⟨hfound, htypes⟩ := ofFiles_started h
  have hfile := ofFile_started h (Starter.ofYaml_description (start_eq_none h).1 language hfree)
  have hfiles : (Starter.api name language).schemas.mapM
      (Schema.findFile (start w v name language dir).files
        (searchDirs (Path.join dir (name ++ ".yaml")) w.programDir)) =
      .ok (Starter.project name language dir).schemaFiles := by
    rw [Starter.api, List.mapM_cons, List.mapM_nil, hfound]
    rfl
  have hchecked : checkValid (Starter.api name language) Starter.types = .ok () := by
    rw [checkValid, Starter.validate_api]
  -- Every stage of the loading succeeds on what was written.
  refine bind_eq_ok_iff.mpr ⟨_, mapError_eq_ok_iff.mpr hfile, ?_⟩
  refine bind_eq_ok_iff.mpr ⟨_, mapError_eq_ok_iff.mpr hfiles, ?_⟩
  refine bind_eq_ok_iff.mpr ⟨_, mapError_eq_ok_iff.mpr htypes, ?_⟩
  exact bind_eq_ok_iff.mpr ⟨_, hchecked, rfl⟩

/-- **A project whose name is reserved does not.** -/
theorem load_started_reserved (hreserved : name ∈ Starter.reserved) :
    Project.load (start w v name language dir).files w.programDir
        (Path.join dir (name ++ ".yaml")) {} =
      .error (.load (.shape ⟨["api", "name"], .wrongType (Yaml.wordValue name) "string"⟩)) := by
  have hyaml := Starter.ofYaml_reserved hreserved language
  have hfind := find_description h
  have hfile : Api.ofFile (start w v name language dir).files (Path.join dir (name ++ ".yaml")) =
      .error (.shape ⟨["api", "name"], .wrongType (Yaml.wordValue name) "string"⟩) := by
    -- The file is small enough to be read, so the shape is what fails.
    unfold Api.ofFile
    rw [size_of_find hfind, readText_of_find hfind]
    simp only [Except.mapError, bind, Except.bind]
    rw [if_neg (Nat.not_lt.mpr (size_description h))]
    exact hyaml
  unfold Project.load
  rw [hfile]
  rfl

end Started

/-- **Emitters succeed on a new project**, whatever the output directory is called. -/
theorem emit_started {name : String} (hname : Starter.isApiName name = true) (language : Language)
    (dir output : String) :
    ∃ artifacts, emitPlanned ((Starter.project name language dir).context output) =
      .ok artifacts := by
  have hdocument := Starter.ofDocument_tree hname language
  have hvalid := Starter.validate_api name language
  have hapi : ((Starter.project name language dir).context output).api =
      (Starter.api name language).override none [] := rfl
  exact (emitPlanned_eq_ok_iff_canExpress hdocument hapi Starter.types_read hvalid).mpr
    fun e _ => Starter.canExpress_starter rfl rfl e

/-- **A new project is valid unless its name is reserved.** It loads, with the name and the language
that were asked for and for all targets, its schema is found, validation finds nothing, and every
planned emitter succeeds. A reserved name is read as something else than a text, and the shape of
the description is violated there. -/
theorem started_project_valid_unless_reserved {w : World} {v : Verbosity} {name dir : String}
    {language : Language} (success : (start w v name language dir).failure = none) :
    if name ∈ Starter.reserved then
      Project.load (start w v name language dir).files w.programDir
          (Path.join dir (name ++ ".yaml")) {} =
        .error (.load (.shape ⟨["api", "name"], .wrongType (Yaml.wordValue name) "string"⟩))
    else
      ∃ p, Project.load (start w v name language dir).files w.programDir
          (Path.join dir (name ++ ".yaml")) {} = .ok p ∧
        p.api.metadata.name = name ∧ p.api.metadata.language = language ∧
        p.api.metadata.targets = [] ∧ p.types = Starter.types ∧
        p.api.validate (some p.types) = [] ∧
        ∀ output, ∃ artifacts, emitPlanned (p.context output) = .ok artifacts := by
  have hname := (start_eq_none success).1
  split
  next hreserved => exact load_started_reserved success hreserved
  next hfree =>
    exact ⟨_, load_started success hfree, rfl, rfl, rfl, rfl, Starter.validate_api name language,
      emit_started hname language dir⟩

/-- A world without files. -/
def bareWorld : World where
  files := {}
  programDir := "bin"

theorem failure_start_lantern :
    (start bareWorld {} "lantern" .rust "projects/demo").failure = none := by
  have hnone : (start bareWorld {} "lantern" .rust "projects/demo").failure.isNone = true := by
    decide +kernel
  exact Option.isNone_iff_eq_none.mp hnone

theorem started_project_valid_lantern :
    (start bareWorld {} "lantern" .rust "projects/demo").failure = none ∧
      ∃ p, Project.load (start bareWorld {} "lantern" .rust "projects/demo").files "bin"
          (Path.join "projects/demo" ("lantern" ++ ".yaml")) {} = .ok p ∧
        p.api.metadata.name = "lantern" ∧ p.api.metadata.language = .rust ∧
        p.api.validate (some p.types) = [] ∧
        ∃ artifacts, emitPlanned (p.context "generated") = .ok artifacts := by
  have hvalid := started_project_valid_unless_reserved failure_start_lantern
  rw [if_neg (by decide)] at hvalid
  obtain ⟨p, hload, hname, hlanguage, -, -, hfindings, hemitted⟩ := hvalid
  exact ⟨failure_start_lantern, p, hload, hname, hlanguage, hfindings, hemitted "generated"⟩

/-- **A project that is started and does not load**: its name is read as a truth value. -/
theorem started_project_invalid :
    Starter.isApiName "true" = true ∧ (start bareWorld {} "true" .c "demo").failure = none ∧
      Project.load (start bareWorld {} "true" .c "demo").files bareWorld.programDir
          (Path.join "demo" ("true" ++ ".yaml")) {} =
        .error (.load (.shape ⟨["api", "name"], .wrongType (.bool true) "string"⟩)) := by
  have hnone : (start bareWorld {} "true" .c "demo").failure.isNone = true := by decide +kernel
  have hstarted := Option.isNone_iff_eq_none.mp hnone
  exact ⟨by decide, hstarted, load_started_reserved hstarted (by decide)⟩

end Bindery
