import Bindery.Proofs.Preview

/-!
# How project files find generated ones

Project files lie beside the output directory and refer to the generated ones in it: the makefile
names the directory and calls the generator for it, and the root of a crate names the sources of
its modules. They know the directory by its last name only, and a directory without names by a
default. So what they find depends on two ways of taking a path apart, one for the directory above
and one for the last name, which have to fit together:

* `Path.place_above` — the directory above a path leads where its names but the last lead;
* `place_join_above` — the last name, joined to the directory above, leads to the directory
  that project files refer to (`referredDir`).

A reference is followed from the file that it stands in (`FileSystem.follow`). What the references
of a run lead to is collected in `ReferTo`: the directory itself, the sources of a crate one by one,
and every artifact once more when the generator is called again, from the project and for the last
name alone (`place_join_destination`). The main statement, `project_finds_generated_iff`, says when
the directory referred to is the one that was generated to.

References are written down without quotes. They are followed for names that make, the shell and the
literals of a crate take as they stand (`IsVerbatim`); a blank or a sharp sign in the name of the
output directory is not among these.
-/

namespace Bindery

/-! ### The directory above a path -/

namespace Path

variable {p q base r s : String}

/-- The directory that holds what a path leads to. -/
def above (p : String) : String := (parent? p).getD ""

/-- A path without names is held by the current directory. -/
theorem above_of_names_eq_nil (h : names p = []) : above p = "" := by
  rw [above]
  cases hparent : parent? p with
  | none => rfl
  | some q =>
    obtain ⟨hq, -⟩ | ⟨last, hnames⟩ := names_parent? hparent
    · exact hq
    · rw [h] at hnames
      simp at hnames

/-- The parent of a path with names starts where the path does. -/
theorem isAbsolute_parent? (h : parent? p = some q) (hnames : names p ≠ []) :
    isAbsolute q = isAbsolute p := by
  by_cases hq : q = ""
  · subst hq
    obtain ⟨-, -, hnil⟩ | ⟨xs, ys, last, -, -, htext⟩ := exists_segments_parent? h
    · exact absurd hnil hnames
    · -- the text of a parent shows where it begins, unless it is the current directory
      have hfront : (parts p).front = .none := by
        cases hp : (parts p).front with
        | none => rfl
        | root | current =>
          rw [hp, Parts.text] at htext
          have hbegin := (String.append_eq_empty_iff.mp htext.symm).1
          simp [Front.text] at hbegin
      rw [isAbsolute, isAbsolute, hfront]
      rfl
  · exact isAbsolute_of_beginning (beginning_of_parent? h) hq

/-- **The directory above a path with names** leads where its names but the last lead. -/
theorem place_above (h : names p ≠ []) : place (above p) = (isAbsolute p, (names p).dropLast) := by
  obtain ⟨q, hq⟩ := exists_parent? h
  obtain ⟨-, hnil⟩ | ⟨last, hlast⟩ := names_parent? hq
  · exact absurd hnil h
  · rw [above, hq, Option.getD_some, place, isAbsolute_parent? hq h, hlast, List.dropLast_concat]

/-- What a relative path that is joined to a directory leads to. -/
theorem place_join (h : isAbsolute r = false) (base : String) :
    place (join base r) = (isAbsolute base, names base ++ names r) := by
  rw [place, isAbsolute_join h, names_join h]

/-- A file is held by the directory that it is put in. -/
theorem place_above_join (h : isAbsolute r = false) {front : List String} {last : String}
    (hnames : names r = front ++ [last]) (base : String) :
    place (above (join base r)) = (isAbsolute base, names base ++ front) := by
  have hne : names (join base r) ≠ [] := by
    rw [names_join h, hnames]
    simp
  rw [place_above hne, isAbsolute_join h, names_join h, hnames, ← List.append_assoc,
    List.dropLast_concat]

/-- What is among the names of a path can be a name alone. -/
theorem isName_of_mem_names (hmem : s ∈ names p) (hup : s ≠ "..") : IsName s := by
  rw [names, List.mem_filter] at hmem
  exact ⟨not_mem_of_mem_segments hmem.1, by simpa using hmem.2, hup⟩

theorem names_up (hs : IsName s) (hr : IsName r) :
    names ("../" ++ s ++ "/" ++ r) = ["..", s, r] := by
  have hfirst : ("../" : String) = ".." ++ "/" := rfl
  have hparent : names ".." = [".."] := by decide
  rw [names_append_slash, hfirst, names_append_slash, hparent, names_of_piece hs.1 hs.2.1,
    names_of_piece hr.1 hr.2.1]
  rfl

theorem isAbsolute_up (s : String) : isAbsolute ("../" ++ s) = false := by
  rw [Bool.eq_false_iff, Ne, isAbsolute_iff]
  simp

end Path

/-! ### The name of the output directory -/

section Named

variable {dir : String}

/-- **The directory that project files refer to**: the output directory, or the one with the
default name where the output directory has no name. -/
def referredDir (dir : String) : String :=
  if Path.names dir = [] then defaultOutputName else dir

theorem generatedDirName_of_names_eq_nil (h : Path.names dir = []) :
    generatedDirName dir = defaultOutputName := by
  rw [generatedDirName, Path.fileName?, h]
  rfl

/-- The name of an output directory is the last of its names. -/
theorem names_eq_concat (h : checkOutputDir dir = .ok ()) (hnames : Path.names dir ≠ []) :
    Path.names dir = (Path.names dir).dropLast ++ [generatedDirName dir] := by
  -- a step up would not count as a name, but an accepted directory has none
  have hlast : (Path.names dir).getLast hnames ≠ ".." := fun hup =>
    not_mem_names_of_checkOutputDir h (hup ▸ List.getLast_mem hnames)
  have hname : generatedDirName dir = (Path.names dir).getLast hnames := by
    rw [generatedDirName, Path.fileName?, List.getLast?_eq_some_getLast hnames,
      Option.filter_some_pos (by simpa using hlast), Option.getD_some]
  rw [hname, List.dropLast_append_getLast]

theorem isName_generatedDirName (h : checkOutputDir dir = .ok ()) :
    Path.IsName (generatedDirName dir) := by
  by_cases hnames : Path.names dir = []
  · rw [generatedDirName_of_names_eq_nil hnames]
    decide
  · have hmem : generatedDirName dir ∈ Path.names dir := by
      rw [names_eq_concat h hnames]
      simp
    refine Path.isName_of_mem_names hmem fun hup => ?_
    exact not_mem_names_of_checkOutputDir h (hup ▸ hmem)

/-- The directory referred to begins where the directory above does. -/
theorem isAbsolute_referredDir (dir : String) :
    Path.isAbsolute (referredDir dir) = Path.isAbsolute (Path.above dir) := by
  rw [referredDir]
  by_cases hnames : Path.names dir = []
  · rw [if_pos hnames, Path.above_of_names_eq_nil hnames]
    decide
  · rw [if_neg hnames]
    exact (Prod.mk.inj (Path.place_above hnames)).1.symm

/-- The directory referred to is one name further than the directory above. -/
theorem names_referredDir (h : checkOutputDir dir = .ok ()) :
    Path.names (referredDir dir) = Path.names (Path.above dir) ++ [generatedDirName dir] := by
  rw [referredDir]
  by_cases hnames : Path.names dir = []
  · rw [if_pos hnames, Path.above_of_names_eq_nil hnames, generatedDirName_of_names_eq_nil hnames]
    decide
  · rw [if_neg hnames, (Prod.mk.inj (Path.place_above hnames)).2, ← names_eq_concat h hnames]

/-- **Taking a path apart and putting it together again**: the last name, joined to the directory
above. -/
theorem place_join_above (h : checkOutputDir dir = .ok ()) :
    Path.place (Path.join (Path.above dir) (generatedDirName dir)) =
      Path.place (referredDir dir) := by
  have hname := isName_generatedDirName h
  rw [Path.place_join hname.isAbsolute, Path.names_of_piece hname.1 hname.2.1, Path.place,
    isAbsolute_referredDir, names_referredDir h]

/-- Only an output directory with a name is the directory referred to. -/
theorem place_referredDir_iff :
    Path.place (referredDir dir) = Path.place dir ↔ Path.names dir ≠ [] := by
  rw [referredDir]
  by_cases hnames : Path.names dir = []
  · rw [if_pos hnames]
    refine ⟨fun hplace => ?_, fun hne => absurd hnames hne⟩
    have hdefault := (Prod.mk.inj hplace).2
    rw [hnames] at hdefault
    exact absurd hdefault (by decide)
  · rw [if_neg hnames]
    exact ⟨fun _ => hnames, fun _ => rfl⟩

/-- Project files lie beside the output directory. -/
theorem destination_of_isProjectFile {a : Artifact} (h : a.isProjectFile = true) (dir : String) :
    a.destination dir = Path.join (Path.above dir) a.path := by
  rw [a.destination_eq, Artifact.root, if_pos h, Path.above]

/-- All other artifacts lie below it. -/
theorem destination_of_not_isProjectFile {a : Artifact} (h : a.isProjectFile = false)
    (dir : String) : a.destination dir = Path.join dir a.path := by
  rw [a.destination_eq, Artifact.root, h, if_neg Bool.false_ne_true]

/-- Nothing is above a name alone. -/
theorem place_above_name {name : String} (h : Path.IsName name) :
    Path.place (Path.above name) = (false, []) := by
  have hpiece := Path.names_of_piece h.1 h.2.1
  rw [Path.place_above (by simp [hpiece]), h.isAbsolute, hpiece]
  rfl

/-- The directory referred to lies where the output directory does. -/
theorem place_above_referredDir (dir : String) :
    Path.place (Path.above (referredDir dir)) = Path.place (Path.above dir) := by
  rw [referredDir]
  by_cases hnames : Path.names dir = []
  · rw [if_pos hnames, Path.above_of_names_eq_nil hnames]
    decide
  · rw [if_neg hnames]

section Again

variable {a : Artifact} (hpath : Path.isAbsolute a.path = false)

include hpath

/-- An artifact for a name goes somewhere below or beside it. -/
theorem isAbsolute_destination_name {name : String} (h : Path.IsName name) :
    Path.isAbsolute (a.destination name) = false := by
  cases hproject : a.isProjectFile with
  | true =>
    rw [destination_of_isProjectFile hproject, Path.isAbsolute_join hpath]
    exact (Prod.mk.inj (place_above_name h)).1
  | false =>
    rw [destination_of_not_isProjectFile hproject, Path.isAbsolute_join hpath, h.isAbsolute]

/-- **Artifacts for the name**, as seen from the directory above, are the artifacts for the
directory. -/
theorem place_join_destination (h : checkOutputDir dir = .ok ()) :
    Path.place (Path.join (Path.above dir) (a.destination (generatedDirName dir))) =
      Path.place (a.destination (referredDir dir)) := by
  have hname := isName_generatedDirName h
  rw [Path.place_join (isAbsolute_destination_name hpath hname)]
  cases hproject : a.isProjectFile with
  | true =>
    -- both lie in the directory above
    have habove := place_above_referredDir dir
    rw [Path.place, Path.place, Prod.mk.injEq] at habove
    rw [destination_of_isProjectFile hproject, destination_of_isProjectFile hproject,
      Path.place_join hpath, Path.names_join hpath, (Prod.mk.inj (place_above_name hname)).2,
      List.nil_append, habove.1, habove.2]
  | false =>
    rw [destination_of_not_isProjectFile hproject, destination_of_not_isProjectFile hproject,
      Path.place_join hpath, Path.names_join hpath, Path.names_of_piece hname.1 hname.2.1,
      isAbsolute_referredDir, names_referredDir h, List.append_assoc]

end Again

end Named

/-! ### References -/

namespace FileSystem

variable (fs : FileSystem) {file reference p q : String}

/-- Where a reference leads that is read in the directory of the file in which it stands. -/
def follow (fs : FileSystem) (file reference : String) : Location :=
  fs.target (Path.join (Path.above file) reference)

theorem target_of_place (h : Path.place p = Path.place q) : fs.target p = fs.target q := by
  obtain ⟨hstart, hnames⟩ := Prod.mk.inj h
  rw [target, target, start, start, hstart, hnames]

/-- Only the place of the directory matters. -/
theorem follow_eq_target {base : String} (hbase : Path.place (Path.above file) = Path.place base)
    (hreference : Path.isAbsolute reference = false)
    (h : Path.place (Path.join base reference) = Path.place q) :
    fs.follow file reference = fs.target q := by
  obtain ⟨hstart, hnames⟩ := Prod.mk.inj hbase
  refine fs.target_of_place (Eq.trans ?_ h)
  rw [Path.place_join hreference, Path.place_join hreference, hstart, hnames]

/-- **A name and the way back up** cancel out. -/
theorem resolve_back {l : Location} {front rest : List String} {name : String}
    (hfront : ".." ∉ front) (hname : name ≠ "..") (hrest : ".." ∉ rest) :
    resolve l (front ++ [name] ++ ".." :: rest) = l ++ (front ++ rest) := by
  have hdown : resolve l (front ++ [name]) = l ++ front ++ [name] := by
    rw [resolve_eq_append (by simp [hfront, hname.symm]), List.append_assoc]
  calc resolve l (front ++ [name] ++ ".." :: rest)
      = resolve (resolve l (front ++ [name])) (".." :: rest) := List.foldl_append
    _ = resolve (stepTo (l ++ front ++ [name]) "..") rest := by rw [hdown, resolve_cons]
    _ = l ++ front ++ rest := by
      rw [stepTo, if_pos rfl, List.dropLast_concat, resolve_eq_append hrest]
    _ = l ++ (front ++ rest) := List.append_assoc ..

end FileSystem

/-- The makefile of a description. -/
def Context.makefile (ctx : Context) : Build.Makefile where
  ctx
  language := ctx.api.metadata.language

/-- The line of a makefile that names the directory of generated files. -/
def Build.directoryLine (value : String) : Line where
  text := "GEN_DIR     := " ++ value

/-- The line of a makefile that calls the generator. -/
def Build.commandLine (language : Language) (value : String) : Line where
  depth := 1
  text := "$(XPLATTER) generate --impl-lang " ++ language.name ++ " -o " ++ value ++ " $(API_DEF)"

/-- The attribute that says where the source of a module is. -/
def Rust.pathLine (value : String) : Line where
  text := "#[path = \"" ++ value ++ "\"]"

/-- Whether make, the shell and a literal of a crate take a character as it stands, wherever it is in
a text. -/
def isVerbatimChar (c : Char) : Bool := c.isAlphanum || c = '_' || c = '-' || c = '.' || c = '/'

/-- **A text that is taken as it stands**: it is one word without a mark of make, of the shell or of a
literal, and no option. -/
structure IsVerbatim (s : String) : Prop where
  chars : s.toList.all isVerbatimChar = true
  nonempty : s ≠ ""
  noOption : s.toList.head? ≠ some '-'

instance (s : String) : Decidable (IsVerbatim s) :=
  decidable_of_iff (s.toList.all isVerbatimChar = true ∧ s ≠ "" ∧ s.toList.head? ≠ some '-')
    ⟨fun h => ⟨h.1, h.2.1, h.2.2⟩, fun h => ⟨h.chars, h.nonempty, h.noOption⟩⟩

/-- A text goes on as it stands. -/
theorem IsVerbatim.append {s t : String} (hs : IsVerbatim s)
    (ht : t.toList.all isVerbatimChar = true) : IsVerbatim (s ++ t) where
  chars := by
    rw [String.toList_append, List.all_append, hs.chars, ht]
    rfl
  nonempty := fun h => hs.nonempty (String.append_eq_empty_iff.mp h).1
  noOption := by
    obtain ⟨c, cs, hcs⟩ := List.exists_cons_of_ne_nil (mt String.toList_eq_nil_iff.mp hs.nonempty)
    have hfirst := hs.noOption
    rw [String.toList_append, hcs]
    rwa [hcs] at hfirst

/-- The name of an interface is taken as it stands. -/
theorem all_isVerbatimChar_of_isSnakeIdentifier {s : String} (h : isSnakeIdentifier s = true) :
    s.toList.all isVerbatimChar = true := by
  obtain ⟨c, cs, hs, hlower, hall⟩ := exists_of_isSnakeIdentifier h
  have htail : ∀ d, isSnakeTail d = true → isVerbatimChar d = true := by
    intro d hd
    simp only [isSnakeTail, isVerbatimChar, Char.isAlphanum, Char.isAlpha, Bool.or_eq_true] at hd ⊢
    tauto
  rw [hs, List.all_cons, Bool.and_eq_true, List.all_eq_true]
  refine ⟨?_, fun d hd => htail d (hall d hd)⟩
  simp only [isVerbatimChar, Char.isAlphanum, Char.isAlpha, hlower, Bool.or_true, Bool.true_or]

/-- The root of the crate as a file. -/
def Rust.rootFile (ctx : Context) (modules : Rust.Modules) : Artifact :=
  (ctx.scaffoldFile .slash "src/lib.rs" Code.fourBlanks (Rust.crateRoot ctx modules)).inProject

/-- **The root of a crate refers to the generated sources** in a directory: each attribute leads to
one of them, and each of them is led to. -/
structure Rust.ReferTo (fs : FileSystem) (ctx : Context) (files : List Artifact)
    (modules : Rust.Modules) (dir dest : String) : Prop where
  root : Rust.rootFile ctx modules ∈ files
  leads : ∀ value, Rust.pathLine value ∈ Rust.crateRoot ctx modules →
    IsVerbatim value ∧ ∃ a ∈ files, a.isProjectFile = false ∧
      fs.follow ((Rust.rootFile ctx modules).destination dir) value = fs.target (a.destination dest)
  led : ∀ a ∈ files, a.isProjectFile = false →
    ∃ value, Rust.pathLine value ∈ Rust.crateRoot ctx modules ∧
      fs.follow ((Rust.rootFile ctx modules).destination dir) value = fs.target (a.destination dest)

/-- **The files of a project refer to a directory**, in texts that are taken as they stand. -/
structure ReferTo (fs : FileSystem) (ctx : Context) (artifacts : List Artifact)
    (dir dest : String) : Prop where
  makefile : ctx.makefile.artifact ∈ artifacts
  /-- The variable of the makefile names the directory. -/
  named : ∃ value, Build.directoryLine value ∈ ctx.makefile.lines ∧ IsVerbatim value ∧
    fs.follow (ctx.makefile.artifact.destination dir) value = fs.target dest
  /-- The generator is called for the directory, so that it puts every artifact there or beside
  it once more. -/
  called : ∃ value, Build.commandLine ctx.api.metadata.language value ∈ ctx.makefile.lines ∧
    IsVerbatim value ∧ fs.follow (ctx.makefile.artifact.destination dir) value = fs.target dest ∧
    ∀ a ∈ artifacts, fs.follow (ctx.makefile.artifact.destination dir) (a.destination value) =
      fs.target (a.destination dest)
  crate : ctx.api.metadata.language = .rust → ∃ files modules, Rust.emit ctx = .ok files ∧
    files ⊆ artifacts ∧ Rust.ReferTo fs ctx files modules dir dest

/-! ### The makefile -/

section Made

variable {ctx : Context} {dir : String}

theorem directoryLine_mem : Build.directoryLine (ctx.generatedDir ++ "/") ∈ ctx.makefile.lines := by
  have hvariable : Build.directoryLine (ctx.generatedDir ++ "/") ∈ ctx.makefile.variableLines := by
    -- the slash behind the name belongs to the value
    rw [Build.directoryLine, ← String.append_assoc]
    simp only [Build.Makefile.variableLines, List.mem_append]
    exact .inl (.inl (.inl (.inl (List.mem_map_of_mem (List.mem_of_getElem? (i := 8) rfl)))))
  simp only [Build.Makefile.lines, List.mem_append, hvariable, true_or]

theorem commandLine_mem :
    Build.commandLine ctx.api.metadata.language ctx.generatedDir ∈ ctx.makefile.lines := by
  have hrule : Build.commandLine ctx.api.metadata.language ctx.generatedDir ∈
      ctx.makefile.codegenLines := by
    simp only [Build.Makefile.codegenLines, Build.Makefile.rule, List.mem_append]
    -- the call stands in the recipe, which is indented, behind the line that makes a directory
    refine .inl (.inr (.inr (List.mem_map.mpr ⟨_, List.mem_map_of_mem ?_, rfl⟩)))
    simp only [List.mem_append]
    exact .inl (.inl (List.mem_of_getElem? (i := 1) rfl))
  simp only [Build.Makefile.lines, List.mem_append, hrule, true_or, or_true]

/-- A relative reference in the makefile is read where the makefile lies. -/
theorem follow_makefile {fs : FileSystem} {reference q : String}
    (hreference : Path.isAbsolute reference = false)
    (h : Path.place (Path.join (Path.above dir) reference) = Path.place q) :
    fs.follow (ctx.makefile.artifact.destination dir) reference = fs.target q := by
  have hnames : Path.names "Makefile" = [] ++ ["Makefile"] := by decide
  have hproject : ctx.makefile.artifact.isProjectFile = true := rfl
  have hpath : ctx.makefile.artifact.path = "Makefile" := rfl
  refine fs.follow_eq_target ?_ hreference h
  rw [destination_of_isProjectFile hproject, hpath, Path.place_above_join (by decide) hnames,
    List.append_nil, Path.place]

end Made

/-! ### The root of the crate -/

namespace Rust

/-- The modules whose sources are generated. -/
def Modules.generated (modules : Modules) (ctx : Context) : List String :=
  (if ctx.types.entries.isEmpty then [] else [modules.types]) ++ [modules.traits, modules.exports]

variable {ctx : Context} {modules : Modules} {dir : String}

/-- **The attributes of the root**, one for each generated module. -/
theorem pathLine_mem_crateRoot_iff {value : String} :
    pathLine value ∈ crateRoot ctx modules ↔
      ∃ m ∈ modules.generated ctx, value = "../" ++ ctx.generatedDir ++ "/" ++ (m ++ ".rs") := by
  have hattribute : ∀ m : String,
      "#[path = \"../" ++ ctx.generatedDir ++ "/" ++ m ++ ".rs\"]" = (pathLine value).text ↔
        value = "../" ++ ctx.generatedDir ++ "/" ++ (m ++ ".rs") := by
    intro m
    -- the emitter writes the quote and the step up as one text
    have htext : "#[path = \"../" ++ ctx.generatedDir ++ "/" ++ m ++ ".rs\"]" =
        "#[path = \"" ++ ("../" ++ ctx.generatedDir ++ "/" ++ (m ++ ".rs")) ++ "\"]" := by
      simp [← String.toList_inj]
    rw [htext, pathLine, String.append_left_inj, String.append_right_inj, eq_comm]
  have hmod : ∀ m : String, "pub mod " ++ m ++ ";" ≠ (pathLine value).text := by
    intro m heq
    -- the declaration of a module begins with another character than an attribute
    have hhead := congrArg (fun s => s.toList.head?) heq
    simp [pathLine] at hhead
  have hline : pathLine value ∈ crateRoot ctx modules ↔
      (pathLine value).text ∈
        (modules.generated ctx).flatMap (fun m =>
          ["#[path = \"../" ++ ctx.generatedDir ++ "/" ++ m ++ ".rs\"]", "pub mod " ++ m ++ ";"]) ++
        ["pub mod " ++ modules.implementation ++ ";"] := by
    constructor
    · intro h
      obtain ⟨text, htext, heq⟩ := List.mem_map.mp h
      rw [← heq]
      exact htext
    · intro h
      exact List.mem_map_of_mem (f := fun text => ({ text } : Line)) h
  rw [hline, List.mem_append, List.mem_singleton, List.mem_flatMap,
    or_iff_left (hmod _).symm]
  refine exists_congr fun m => and_congr_right fun _ => ?_
  rw [List.mem_pair, or_iff_left (hmod m).symm, eq_comm, hattribute]

/-- **An attribute leads to the source of its module**: up from the sources of the project and down
into the directory referred to. -/
theorem follow_rootFile {fs : FileSystem} (h : checkOutputDir dir = .ok ()) {last : String}
    (hlast : Path.IsName last) :
    fs.follow ((rootFile ctx modules).destination dir)
        ("../" ++ generatedDirName dir ++ "/" ++ last) =
      fs.target (Path.join (referredDir dir) last) := by
  have hname := isName_generatedDirName h
  -- no name in front is a step up, so the one of the attribute undoes the directory of sources
  have hup : ".." ∉ Path.names (Path.above dir) := not_mem_names_root h (rootFile ctx modules)
  have hproject : (rootFile ctx modules).isProjectFile = true := rfl
  have hpath : (rootFile ctx modules).path = "src/lib.rs" := rfl
  have hsource : Path.names "src/lib.rs" = ["src"] ++ ["lib.rs"] := by decide
  have hholder : Path.place (Path.above ((rootFile ctx modules).destination dir)) =
      (Path.isAbsolute (Path.above dir), Path.names (Path.above dir) ++ ["src"]) := by
    rw [destination_of_isProjectFile hproject, hpath, Path.place_above_join (by decide) hsource]
  have hrelative : Path.isAbsolute ("../" ++ generatedDirName dir ++ "/" ++ last) = false := by
    rw [String.append_assoc, String.append_assoc]
    exact Path.isAbsolute_up _
  have hdown : ".." ∉ [generatedDirName dir, last] := by
    simp [hname.2.2.symm, hlast.2.2.symm]
  have hreferred : Path.names (Path.join (referredDir dir) last) =
      Path.names (Path.above dir) ++ [generatedDirName dir, last] := by
    rw [hlast.names_join, names_referredDir h, List.append_assoc, List.singleton_append]
  obtain ⟨habsolute, hfront⟩ := Prod.mk.inj hholder
  rw [FileSystem.follow, FileSystem.target, FileSystem.target, FileSystem.start, FileSystem.start,
    Path.isAbsolute_join hrelative, Path.isAbsolute_join hlast.isAbsolute,
    Path.names_join hrelative, habsolute, hfront, Path.names_up hname hlast,
    isAbsolute_referredDir, hreferred]
  exact (FileSystem.resolve_back hup (by decide) hdown).trans
    (FileSystem.resolve_eq_append (by simp [hup, hname.2.2.symm, hlast.2.2.symm])).symm

/-- The generated sources of a crate. -/
theorem exists_of_emit {files : List Artifact} (h : emit ctx = .ok files) :
    ∃ modules, rootFile ctx modules ∈ files ∧
      ((files.filter fun a => !a.isProjectFile).map (·.path)).Perm
        ((modules.generated ctx).map (· ++ ".rs")) ∧
      ∀ m ∈ modules.generated ctx, ∃ role ∈ ["_types", "_trait", "_ffi"],
        m = ctx.apiName ++ role := by
  obtain ⟨modules, hmodules, h⟩ := bind_eq_ok_iff.mp h
  obtain ⟨ts, -, h⟩ := bind_eq_ok_iff.mp h
  obtain ⟨es, -, h⟩ := bind_eq_ok_iff.mp h
  simp only [Modules.ofApi, bind_eq_ok_iff, pure_eq_ok_iff] at hmodules
  obtain ⟨types, htypes, traits, htraits, exports, hexports, implementation, -, rfl⟩ := hmodules
  obtain rfl := eq_of_literalName htypes
  obtain rfl := eq_of_literalName htraits
  obtain rfl := eq_of_literalName hexports
  refine ⟨⟨ctx.apiName ++ "_types", ctx.apiName ++ "_trait", ctx.apiName ++ "_ffi",
    implementation⟩, ?_⟩
  dsimp only at h
  -- without types there is no file for them
  split at h
  next hempty =>
    obtain rfl := Except.ok.inj h
    refine ⟨by simp [rootFile], ?_, ?_⟩
    · simp [Modules.generated, hempty, Artifact.inProject, String.append_assoc]
    · simp [Modules.generated, hempty]
  next hempty =>
    obtain ⟨ds, -, h⟩ := bind_eq_ok_iff.mp h
    obtain rfl := Except.ok.inj h
    refine ⟨by simp [rootFile], ?_, ?_⟩
    · have hlast := List.perm_append_singleton (ctx.apiName ++ "_types.rs")
        [ctx.apiName ++ "_trait.rs", ctx.apiName ++ "_ffi.rs"]
      simpa [Modules.generated, hempty, Artifact.inProject, String.append_assoc] using hlast
    · simp [Modules.generated, hempty]

/-- The generated sources of a crate have names of their own. -/
theorem isName_path_of_emit {files : List Artifact} (hname : isSnakeIdentifier ctx.apiName = true)
    (h : emit ctx = .ok files) {a : Artifact} (ha : a ∈ files)
    (hproject : a.isProjectFile = false) : Path.IsName a.path := by
  have hmem := (located_sublist_files (e := .rustSkeleton) h).subset (List.mem_map_of_mem ha)
  obtain ⟨f, hf, heq⟩ := List.mem_map.mp hmem
  obtain ⟨hpath, hflag⟩ := Prod.mk.inj heq
  -- in the table, only project files are in directories of their own
  have hfolder : ∀ f ∈ Emitter.rustSkeleton.files, f.isProjectFile = false → f.folder = none := by
    decide
  rw [← hpath, FilePlace.path, hfolder f hf (hflag.trans hproject)]
  exact isName_name hname hf

/-- **The root of a crate refers to its generated sources.** -/
theorem referTo_of_emit {files : List Artifact} (fs : FileSystem)
    (hdir : checkOutputDir dir = .ok ()) (hname : isSnakeIdentifier ctx.apiName = true)
    (hgenerated : ctx.generatedDir = generatedDirName dir)
    (hverbatim : IsVerbatim (generatedDirName dir)) (h : emit ctx = .ok files) :
    ∃ modules, Rust.ReferTo fs ctx files modules dir (referredDir dir) := by
  obtain ⟨modules, hroot, hpaths, hnames⟩ := exists_of_emit h
  have hfollow : ∀ a ∈ files, a.isProjectFile = false →
      fs.follow ((rootFile ctx modules).destination dir)
          ("../" ++ ctx.generatedDir ++ "/" ++ a.path) =
        fs.target (a.destination (referredDir dir)) := by
    intro a ha hproject
    rw [hgenerated, destination_of_not_isProjectFile hproject]
    exact follow_rootFile hdir (isName_path_of_emit hname h ha hproject)
  -- the modules and the generated sources are the same files
  refine ⟨modules, hroot, ?_, ?_⟩
  · intro value hvalue
    obtain ⟨m, hm, rfl⟩ := pathLine_mem_crateRoot_iff.mp hvalue
    obtain ⟨a, ha, hpath⟩ := List.mem_map.mp (hpaths.mem_iff.mpr (List.mem_map_of_mem hm))
    rw [List.mem_filter, Bool.not_eq_true'] at ha
    refine ⟨?_, a, ha.1, ha.2, hpath ▸ hfollow a ha.1 ha.2⟩
    -- the way up, the directory, and a name made of that of the interface
    obtain ⟨role, hrole, rfl⟩ := hnames m hm
    have hup : IsVerbatim "../" := by decide +kernel
    have hend : (ctx.apiName ++ role ++ ".rs").toList.all isVerbatimChar = true := by
      have hrole : role.toList.all isVerbatimChar = true := by
        have hroles : ∀ r ∈ ["_types", "_trait", "_ffi"], r.toList.all isVerbatimChar = true := by
          decide +kernel
        exact hroles role hrole
      rw [String.toList_append, String.toList_append, List.all_append, List.all_append,
        all_isVerbatimChar_of_isSnakeIdentifier hname, hrole]
      decide +kernel
    rw [hgenerated]
    exact ((hup.append hverbatim.chars).append (by decide +kernel)).append hend
  · intro a ha hproject
    have hmem : a ∈ files.filter fun a => !a.isProjectFile :=
      List.mem_filter.mpr ⟨ha, by rw [hproject]; rfl⟩
    obtain ⟨m, hm, hpath⟩ := List.mem_map.mp (hpaths.mem_iff.mp (List.mem_map_of_mem hmem))
    refine ⟨_, pathLine_mem_crateRoot_iff.mpr ⟨m, hm, rfl⟩, ?_⟩
    rw [hpath]
    exact hfollow a ha hproject

end Rust

/-! ### Runs -/

section Runs

variable {ctx : Context} {artifacts : List Artifact} {dir : String}

/-- What a planned emitter makes is among the artifacts. -/
theorem exists_files_of_planned {e : Emitter} (h : emitPlanned ctx = .ok artifacts)
    (he : e ∈ ctx.api.metadata.language.emitters) :
    ∃ files, e.artifacts ctx = .ok files ∧ files ⊆ artifacts := by
  obtain ⟨made, hmade, hflatten⟩ := bind_eq_ok_iff.mp h
  have hplan : e ∈ plan ctx.api.effectiveTargets ctx.api.metadata.language := by
    rw [plan, Text.mem_distinct_iff, List.mem_append, List.mem_append]
    exact .inl (.inr he)
  obtain ⟨files, hfiles, hemit⟩ := exists_mem_of_forall₂ (mapM_eq_ok_iff.mp hmade) hplan
  refine ⟨files, mapError_eq_ok_iff.mp hemit, fun a ha => ?_⟩
  rw [← Except.ok.inj hflatten]
  exact List.mem_flatten_of_mem hfiles ha

/-- The emitter of the makefile. -/
def Language.builder : Language → Emitter
  | c => .cBuild
  | cpp => .cppBuild
  | rust => .rustBuild
  | go => .goBuild

theorem Language.builder_mem_emitters (l : Language) : l.builder ∈ l.emitters := by
  cases l <;> decide

theorem makefile_mem_builder {l : Language} {files : List Artifact}
    (h : l.builder.artifacts ctx = .ok files) : (Build.Makefile.mk ctx l).artifact ∈ files := by
  cases l with
  | c =>
    obtain ⟨stubs, -, h⟩ := bind_eq_ok_iff.mp h
    obtain rfl := Except.ok.inj h
    exact List.mem_cons_self
  | cpp | rust | go =>
    obtain rfl := Except.ok.inj h
    exact List.mem_cons_self

/-- **Every run makes the makefile of its language.** -/
theorem makefile_mem (h : emitPlanned ctx = .ok artifacts) :
    ctx.makefile.artifact ∈ artifacts := by
  obtain ⟨files, hfiles, hsubset⟩ :=
    exists_files_of_planned h ctx.api.metadata.language.builder_mem_emitters
  exact hsubset (makefile_mem_builder hfiles)

/-- **The files of every run refer to the directory referred to.** -/
theorem referTo_of_emitPlanned (fs : FileSystem) (hdir : checkOutputDir dir = .ok ())
    (hname : isSnakeIdentifier ctx.apiName = true)
    (hgenerated : ctx.generatedDir = generatedDirName dir)
    (hverbatim : IsVerbatim (generatedDirName dir))
    (h : emitPlanned ctx = .ok artifacts) : ReferTo fs ctx artifacts dir (referredDir dir) := by
  have hdirectory := isName_generatedDirName hdir
  have hjoin := place_join_above hdir
  refine ⟨makefile_mem h, ⟨_, directoryLine_mem, ?_, ?_⟩,
    ⟨_, commandLine_mem, hgenerated ▸ hverbatim, ?_, fun a ha => ?_⟩, fun hrust => ?_⟩
  -- The directory is printed with a slash behind it, which is as plain as the name.
  · rw [hgenerated]
    exact hverbatim.append (by decide +kernel)
  · -- the slash behind the name adds nothing
    have hslash : Path.place (Path.join (Path.above dir) (generatedDirName dir ++ "/")) =
        Path.place (Path.join (Path.above dir) (generatedDirName dir)) := by
      have hnames := Path.names_append_slash (generatedDirName dir) ""
      rw [String.append_empty, Path.names_empty, List.append_nil] at hnames
      rw [Path.place_join (hdirectory.isAbsolute_append _), Path.place_join hdirectory.isAbsolute,
        hnames]
    rw [hgenerated]
    exact follow_makefile (hdirectory.isAbsolute_append _) (hslash.trans hjoin)
  · rw [hgenerated]
    exact follow_makefile hdirectory.isAbsolute hjoin
  · -- called again, the generator knows the directory by its last name only
    have hpath := (path_leads_down hname h ha).1
    rw [hgenerated]
    exact follow_makefile (isAbsolute_destination_name hpath hdirectory)
      (place_join_destination hpath hdir)
  · -- only this language has a root that refers to modules
    have hskeleton : Emitter.rustSkeleton ∈ ctx.api.metadata.language.emitters := by
      rw [hrust]
      decide
    obtain ⟨files, hfiles, hsubset⟩ := exists_files_of_planned h hskeleton
    obtain ⟨modules, hrefer⟩ := Rust.referTo_of_emit fs hdir hname hgenerated hverbatim hfiles
    exact ⟨files, modules, hfiles, hsubset, hrefer⟩

end Runs

/-- **Project files find the generated ones** exactly when the output directory has a name. They
refer to the directory of that name beside them, and without a name to the one with the default
name, as long as the name is one that is taken as it stands. -/
theorem project_finds_generated_iff {dir : String} (h : checkOutputDir dir = .ok ()) :
    (Path.place (Path.join (Path.above dir) (generatedDirName dir)) = Path.place dir ↔
        Path.names dir ≠ []) ∧
      (Path.names dir = [] → generatedDirName dir = defaultOutputName) ∧
      (IsVerbatim (generatedDirName dir) →
        ∀ {w : World} {file : String} {o : GenerateOptions} {p : Project}
          {artifacts : List Artifact}, o.output = dir → prepare w file o = .ok (p, artifacts) →
        ∀ fs, ReferTo fs (p.context dir) artifacts dir (referredDir dir)) := by
  refine ⟨?_, generatedDirName_of_names_eq_nil, ?_⟩
  · rw [place_join_above h]
    exact place_referredDir_iff
  · intro hverbatim w file o p artifacts ho hprepare fs
    subst ho
    obtain ⟨hname, hrun⟩ := emitPlanned_of_prepare hprepare
    exact referTo_of_emitPlanned fs h hname rfl hverbatim hrun

/-- A directory with slashes and dots to spare, and a whole run. -/
theorem project_finds_generated_beacon :
    checkOutputDir "./out//gen/." = .ok () ∧
      Path.place (Path.join (Path.above "./out//gen/.") (generatedDirName "./out//gen/.")) =
        Path.place "./out//gen/." ∧
      checkOutputDir cleaning.output = .ok () ∧ IsVerbatim (generatedDirName cleaning.output) ∧
      prepare beaconWorld "beacon.yaml" cleaning = .ok (beaconProject, beaconArtifacts) ∧
      ReferTo beaconWorld.files (beaconProject.context cleaning.output) beaconArtifacts
        cleaning.output cleaning.output := by
  have hdotted : checkOutputDir "./out//gen/." = .ok () := by decide
  have hnames : Path.names "./out//gen/." ≠ [] := by decide
  have hdir : checkOutputDir cleaning.output = .ok () := by decide
  have hverbatim : IsVerbatim (generatedDirName cleaning.output) := by decide +kernel
  have hreferred : referredDir cleaning.output = cleaning.output := by decide
  refine ⟨hdotted, (project_finds_generated_iff hdotted).1.mpr hnames, hdir, hverbatim,
    prepare_beacon, ?_⟩
  have hrefer := (project_finds_generated_iff hdir).2.2 hverbatim rfl prepare_beacon
    beaconWorld.files
  rwa [hreferred] at hrefer

/-- A name with a blank is accepted, but make and the shell read it as two words. -/
example : checkOutputDir "out/my gen" = .ok () ∧
    ¬ IsVerbatim (generatedDirName "out/my gen") := by decide +kernel

/-- **An output directory without a name is missed.** The current directory and the root are
accepted, and project files look for generated ones in a directory that nothing is written to. -/
theorem project_misses_generated :
    checkOutputDir "." = .ok () ∧
      Path.place (Path.join (Path.above ".") (generatedDirName ".")) ≠ Path.place "." ∧
      checkOutputDir "/" = .ok () ∧
      Path.place (Path.join (Path.above "/") (generatedDirName "/")) ≠ Path.place "/" := by
  decide

end Bindery
