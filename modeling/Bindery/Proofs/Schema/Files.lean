import Bindery.Proofs.Files.Lookup
import Bindery.Proofs.Schema.Forming
import Bindery.Schema.Files

/-!
# Schema files in any order

A description lists its schema files in some order. Each file is scanned on its own, so a namespace
ends with the file that declares it; what the files define is added definition by definition; and
references, within a file and across files, are completed only at the end. So files that can be read
form the schema of all their definitions (`ofFiles_eq`), and that schema does not depend on the
order of the definitions (`ofDefinitions_eq_ok_iff`).

What the order does decide is which name is reported where several are defined twice, and which of
its two definitions comes first in the report.

* `files_form_schema_in_any_order` — the files form a schema in one order exactly when they do in
  another, and it is the same schema; they form none exactly when a name is defined twice among
  them, in one file or in several.
-/

namespace Bindery.Schema

/-- **A schema file that can be read**: its name leads to a file with this text. -/
def HasText (fs : FileSystem) (dirs : List String) (path text : String) : Prop :=
  ∃ found, findFile fs dirs path = .ok found ∧ fs.readText found = .ok text

variable {fs : FileSystem} {dirs paths : List String}

/-! ### Adding files -/

/-- A failure of either step is worded alike. -/
theorem mapError_bind {ε ε' α β : Type} (x : Except ε α) (f : α → Except ε β) (g : ε → ε') :
    (x >>= f).mapError g = x.mapError g >>= fun a => (f a).mapError g := by
  cases x <;> rfl

/-- **One file adds its definitions.** -/
theorem addFile_eq {path text : String} (h : HasText fs dirs path text) (types : Schema) :
    addFile fs dirs types path = (types.defineAll (definitionsIn text)).mapError .duplicate := by
  obtain ⟨found, hfound, htext⟩ := h
  rw [addFile, hfound]
  show ((fs.readText found).mapError (FilesError.io found) >>= fun text =>
    (types.defineAll (definitionsIn text)).mapError .duplicate) = _
  rw [htext]
  rfl

/-- Definitions are added one list after the other. -/
theorem defineAll_append (types : Schema) (defs defs' : List (String × TypeDef)) :
    types.defineAll (defs ++ defs') = types.defineAll defs >>= fun types => types.defineAll defs' :=
  List.foldlM_append

/-- The definitions in files with these texts, in the order of the files. -/
def definitionsOf (text : String → String) (paths : List String) : List (String × TypeDef) :=
  paths.flatMap fun p => definitionsIn (text p)

variable {text : String → String}

/-- **All files add all their definitions**, one file after the other. -/
theorem foldlM_addFile (readable : ∀ p ∈ paths, HasText fs dirs p (text p)) (types : Schema) :
    paths.foldlM (addFile fs dirs) types =
      (types.defineAll (definitionsOf text paths)).mapError .duplicate := by
  induction paths generalizing types with
  | nil => rfl
  | cons p paths ih =>
    obtain ⟨hp, hpaths⟩ := List.forall_mem_cons.mp readable
    have hrest : paths.foldlM (addFile fs dirs) =
        fun types => (types.defineAll (definitionsOf text paths)).mapError .duplicate :=
      funext fun types => ih hpaths types
    rw [List.foldlM_cons, definitionsOf, List.flatMap_cons, defineAll_append, mapError_bind,
      addFile_eq hp, hrest]
    rfl

/-- **Files form the schema of all their definitions.** -/
theorem ofFiles_eq (readable : ∀ p ∈ paths, HasText fs dirs p (text p)) :
    ofFiles fs dirs paths = (ofDefinitions (definitionsOf text paths)).mapError .duplicate := by
  rw [ofFiles, foldlM_addFile readable, ofDefinitions]
  show ((defineAll Keyed.empty _).mapError FilesError.duplicate >>= fun types =>
      pure types.qualify) = ((defineAll Keyed.empty _).map qualify).mapError FilesError.duplicate
  cases defineAll Keyed.empty (definitionsOf text paths) <;> rfl

/-! ### Orders -/

/-- The schema does not depend on the order of the definitions. -/
theorem ofDefinitions_eq_ok_iff_of_perm {defs defs' : List (String × TypeDef)}
    (h : defs.Perm defs') (types : Schema) :
    ofDefinitions defs = .ok types ↔ ofDefinitions defs' = .ok types := by
  have hentries := schemaEntries_perm h
  rw [ofDefinitions_eq_ok_iff, ofDefinitions_eq_ok_iff, (h.map Prod.fst).nodup_iff]
  exact and_congr_right fun _ => ⟨fun he => he.trans hentries, fun he => he.trans hentries.symm⟩

/-- **Schema files in any order.** Whatever directories are searched, as long as every file can be
read: the files form a schema in one order exactly when they do in the other, and then it is the
same schema. They form one exactly when no name is defined twice among them, and it has the types
that they define, with every reference completed against all their names. Otherwise a name is
reported that is defined twice. -/
theorem files_form_schema_in_any_order {paths' : List String}
    (readable : ∀ p ∈ paths, HasText fs dirs p (text p)) (order : paths.Perm paths') :
    (∀ types, ofFiles fs dirs paths = .ok types ↔ ofFiles fs dirs paths' = .ok types) ∧
    ((∃ types, ofFiles fs dirs paths = .ok types) ↔
      ((definitionsOf text paths).map Prod.fst).Nodup) ∧
    (∀ types, ofFiles fs dirs paths = .ok types →
      types.entries.Perm (schemaEntries (definitionsOf text paths))) ∧
    (¬ ((definitionsOf text paths).map Prod.fst).Nodup →
      ∃ d : Duplicate, ofFiles fs dirs paths = .error (.duplicate d) ∧
        d.Repeats (definitionsOf text paths)) := by
  have readable' : ∀ p ∈ paths', HasText fs dirs p (text p) :=
    fun p hp => readable p (order.mem_iff.mpr hp)
  have hdefs : (definitionsOf text paths).Perm (definitionsOf text paths') := order.flatMap_right _
  -- Files are read in the given order, and only the definitions in them matter.
  have hok : ∀ types, ofFiles fs dirs paths = .ok types ↔
      ofDefinitions (definitionsOf text paths) = .ok types := by
    intro types
    rw [ofFiles_eq readable, mapError_eq_ok_iff]
  refine ⟨fun types => ?_, ⟨?_, fun hnodup => ?_⟩, fun types htypes => ?_, fun hrepeats => ?_⟩
  · rw [hok, ofFiles_eq readable', mapError_eq_ok_iff]
    exact ofDefinitions_eq_ok_iff_of_perm hdefs types
  · rintro ⟨types, htypes⟩
    exact (ofDefinitions_eq_ok_iff.mp ((hok types).mp htypes)).1
  · obtain ⟨types, htypes, -⟩ := exists_ofDefinitions hnodup
    exact ⟨types.qualify, (hok _).mpr htypes⟩
  · exact (ofDefinitions_eq_ok_iff.mp ((hok types).mp htypes)).2
  · obtain ⟨d, herror, hd⟩ := exists_ofDefinitions_eq_error hrepeats
    exact ⟨d, by rw [ofFiles_eq readable, herror]; rfl, hd⟩

/-! ### Two files -/

/-- A line in one file and its ends in another, in one namespace. -/
def atlasText (path : String) : String :=
  if path = "line.fbs" then "namespace Geo;\nstruct Line \x7b start: Point; \x7d\n"
  else "namespace Geo;\nstruct Point \x7b x: float; \x7d\n"

/-- The definitions in the two files. -/
def atlasDefinitions : List (String × TypeDef) :=
  [("Geo.Line", { kind := .struct, scope := "Geo", fields := [⟨"start", .named "Point"⟩] }),
    ("Geo.Point", { kind := .struct, scope := "Geo", fields := [⟨"x", .primitive .float32⟩] })]

/-- The two files in a directory of schemas. -/
def atlasFiles : FileSystem where
  entries :=
    [(["schemas"], .directory),
      (["schemas", "line.fbs"], .file (atlasText "line.fbs").toUTF8),
      (["schemas", "point.fbs"], .file (atlasText "point.fbs").toUTF8)]

theorem readable_atlas :
    ∀ p ∈ ["line.fbs", "point.fbs"], HasText atlasFiles [".", "schemas"] p (atlasText p) := by
  have hline : HasText atlasFiles [".", "schemas"] "line.fbs" (atlasText "line.fbs") :=
    ⟨"schemas/line.fbs", rfl, FileSystem.readText_of_find rfl⟩
  have hpoint : HasText atlasFiles [".", "schemas"] "point.fbs" (atlasText "point.fbs") :=
    ⟨"schemas/point.fbs", rfl, FileSystem.readText_of_find rfl⟩
  exact List.forall_mem_cons.mpr ⟨hline, List.forall_mem_singleton.mpr hpoint⟩

theorem definitionsOf_atlas :
    definitionsOf atlasText ["line.fbs", "point.fbs"] = atlasDefinitions := by
  decide +kernel

/-- The file that refers to the other one may come before it or after it. -/
theorem files_form_schema_in_any_order_atlas :
    (∀ p ∈ ["line.fbs", "point.fbs"], HasText atlasFiles [".", "schemas"] p (atlasText p)) ∧
    ["line.fbs", "point.fbs"].Perm ["point.fbs", "line.fbs"] ∧
    ∃ types, ofFiles atlasFiles [".", "schemas"] ["line.fbs", "point.fbs"] = .ok types ∧
      ofFiles atlasFiles [".", "schemas"] ["point.fbs", "line.fbs"] = .ok types ∧
      types.get? "Geo.Line" =
        some { kind := .struct, scope := "Geo", fields := [⟨"start", .named "Geo.Point"⟩] } := by
  have order : ["line.fbs", "point.fbs"].Perm ["point.fbs", "line.fbs"] := .swap _ _ _
  obtain ⟨hsame, hforms, hentries, -⟩ := files_form_schema_in_any_order readable_atlas order
  rw [definitionsOf_atlas] at hforms hentries
  obtain ⟨types, htypes⟩ := hforms.mpr (by decide)
  refine ⟨readable_atlas, order, types, htypes, (hsame types).mp htypes, ?_⟩
  rw [Keyed.get?_eq_some_iff, (hentries types htypes).mem_iff]
  decide

end Bindery.Schema
