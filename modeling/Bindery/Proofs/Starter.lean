import Bindery.Proofs.Description
import Bindery.Proofs.Emission
import Bindery.Proofs.Yaml.Lines
import Bindery.Proofs.Yaml.Trees
import Bindery.Starter

/-!
# What a new description says

The text of a new description is the same for all projects, but for the name and the language that
are put into it. So it can be read once for all, from lines to tokens, nodes and a tree:

* `toList_description` — the text is written line by line;
* `load_description` — the tree that it writes: what stands under the name is what the name looks
  like, and that need not be a text (`Yaml.wordValue`);
* `ofYaml_description` — the description that it writes, for a name that is not reserved;
* `ofYaml_reserved` — no description at all, for one that is.

The schema defines one type, and nothing in the description asks more of it than it has, so a
description that can be read is valid (`validate_api`) and every emitter can express it
(`canExpress_starter`).
-/

namespace Bindery.Starter

open Yaml Json

/-! ### Names -/

/-- **The names that a document does not read as texts.** -/
def reserved : List String := ["true", "false", "null"]

/-- What is accepted as the name of a new project is what the shape of descriptions asks for. -/
theorem isApiName_eq (name : String) : isApiName name = isSnakeIdentifier name := by
  rw [isApiName, isSnakeIdentifier]
  cases name.toList <;> rfl

section Name

variable {name : String} (hname : isApiName name = true)

include hname

theorem exists_lower : ∃ c cs, name.toList = c :: cs ∧ c.isLower = true ∧
    ∀ d ∈ cs, d.isLower = true ∨ d.isDigit = true ∨ d = '_' := by
  unfold isApiName at hname
  cases hcs : name.toList with
  | nil =>
    rw [hcs] at hname
    cases hname
  | cons c cs =>
    rw [hcs, Bool.and_eq_true, List.all_eq_true] at hname
    refine ⟨c, cs, rfl, hname.1, fun d hd => ?_⟩
    simpa [or_assoc] using hname.2 d hd

theorem isPlainWord_name : IsPlainWord name.toList := by
  obtain ⟨c, cs, hcs, hc, hrest⟩ := exists_lower hname
  have halpha : ∀ {d : Char}, d.isLower = true → d.isAlphanum = true := by
    intro d hd
    rw [Char.isAlphanum, Char.isAlpha, hd, Bool.or_true, Bool.true_or]
  -- A name in snake case has small letters, digits and underscores only.
  have hchars : ∀ d ∈ name.toList, d.isAlphanum = true ∨ d = '_' := by
    rw [hcs, List.forall_mem_cons]
    refine ⟨.inl (halpha hc), fun d hd => ?_⟩
    obtain hlower | hdigit | hunderscore := hrest d hd
    · exact .inl (halpha hlower)
    · exact .inl (by rw [Char.isAlphanum, hdigit, Bool.or_true])
    · exact .inr hunderscore
  refine ⟨⟨c, cs, hcs, halpha hc⟩, fun d hd => ?_, fun hlast => ?_⟩
  · obtain halphanum | hunderscore := hchars d hd <;> simp [isPlainChar, *]
  · obtain hcolon | hcolon := hchars ':' (List.mem_of_getLast? hlast) <;> cases hcolon

/-- **What a name looks like**: a text, unless it is reserved. -/
theorem plainValue_name : plainValue name = .ok (wordValue name) := by
  obtain ⟨c, cs, hcs, hc, -⟩ := exists_lower hname
  exact plainValue_of_isAlpha hcs (by rw [Char.isAlpha, hc, Bool.or_true])

theorem wordValue_name (hfree : name ∉ reserved) : wordValue name = .str name := by
  obtain ⟨c, cs, hcs, hc, -⟩ := exists_lower hname
  simp only [reserved, List.mem_cons, List.not_mem_nil, or_false, not_or] at hfree
  -- no other spelling of these values begins with a letter in lower case
  have hne : ∀ {s : String} {d : Char}, s.toList.head? = some d → d.isLower = false → name ≠ s := by
    rintro s d hd hlower rfl
    rw [hcs] at hd
    obtain rfl : c = d := Option.some.inj hd
    rw [hc] at hlower
    cases hlower
  have hnull : isNull name = false := by
    simp [isNull, hfree, hne (s := "Null") rfl rfl, hne (s := "NULL") rfl rfl,
      hne (s := "~") rfl rfl]
  have hbool : bool? name = none := by
    simp [bool?, hfree, hne (s := "True") rfl rfl, hne (s := "TRUE") rfl rfl,
      hne (s := "False") rfl rfl, hne (s := "FALSE") rfl rfl]
  rw [wordValue, hnull, hbool]
  rfl

end Name

/-! ### Lines -/

/-- A line with a key, perhaps behind a dash, and a word. -/
def wordLine (column : Nat) (dash : Bool) (key word : List Char) : Yaml.Line :=
  { column, content := .entry dash key (some (.plain word)) }

/-- A line with a key alone, perhaps below empty lines. -/
def keyLine (above column : Nat) (key : List Char) : Yaml.Line :=
  { above, column, content := .entry false key none }

/-- A line with a key and words between quotes. -/
def quotedLine (column : Nat) (key word : List Char) (words : List (List Char)) : Yaml.Line :=
  { column, content := .entry false key (some (.quoted word words)) }

/-- The lines of the description. -/
def lines (name language : List Char) : List Yaml.Line :=
  [ keyLine 0 0 "api".toList,
    wordLine 2 false "name".toList name,
    wordLine 2 false "version".toList "0.1.0".toList,
    quotedLine 2 "description".toList "TODO:".toList
      ["describe".toList, "your".toList, "API".toList],
    wordLine 2 false "impl_lang".toList language,
    keyLine 1 0 "flatbuffers".toList,
    { column := 2, content := .item "schemas/types.fbs".toList },
    keyLine 1 0 "handles".toList,
    wordLine 2 true "name".toList "Instance".toList,
    quotedLine 4 "description".toList "Main".toList ["instance".toList, "handle".toList],
    keyLine 1 0 "interfaces".toList,
    wordLine 2 true "name".toList "lifecycle".toList,
    keyLine 0 4 "constructors".toList,
    wordLine 6 true "name".toList "create_instance".toList,
    keyLine 0 8 "returns".toList,
    wordLine 10 false "type".toList "handle:Instance".toList,
    wordLine 8 false "error".toList "Common.ErrorCode".toList ]

/-- **The description is written line by line.** -/
theorem toList_description (name : String) (language : Language) :
    (description name language).toList = textOf (lines name.toList language.name.toList) := by
  have htext : ∀ n l : List Char, textOf (lines n l) =
      "api:\n  name: ".toList ++ (n ++
        ("\n  version: 0.1.0\n  description: \"TODO: describe your API\"\n".toList ++
        ("  impl_lang: ".toList ++ (l ++ ("\n\nflatbuffers:\n  - schemas/types.fbs\n\n".toList ++
        ("handles:\n  - name: Instance\n    description: \"Main instance handle\"\n\n".toList ++
        ("interfaces:\n  - name: lifecycle\n    constructors:\n      - name: create_instance\n".toList ++
        "        returns:\n          type: handle:Instance\n        error: Common.ErrorCode\n".toList)))))))
        := by
    intro n l
    -- the words are written out before they are compared
    repeat rw [String.toList_ofList]
    cbv
  unfold description
  simp only [String.toList_append, List.append_assoc]
  exact (htext name.toList language.name.toList).symm

/-- The size of a description, but for the two words that are put into it. -/
theorem exists_utf8ByteSize_description : ∃ k ≤ 1000, ∀ (name : String) (language : Language),
    (description name language).utf8ByteSize =
      name.utf8ByteSize + language.name.utf8ByteSize + k := by
  -- The text of the name and that of the language are each in it once.
  have hpieces : ∀ n l a b c d e f g : String,
      (a ++ n ++ b ++ c ++ l ++ d ++ e ++ f ++ g).utf8ByteSize =
        n.utf8ByteSize + l.utf8ByteSize + (a ++ b ++ c ++ d ++ e ++ f ++ g).utf8ByteSize := by
    intro n l a b c d e f g
    simp only [String.utf8ByteSize_append]
    omega
  obtain ⟨k, hk⟩ : ∃ k, ∀ (name : String) (language : Language),
      (description name language).utf8ByteSize =
        name.utf8ByteSize + language.name.utf8ByteSize + k :=
    ⟨_, fun name language => hpieces name language.name _ _ _ _ _ _ _⟩
  have hleast : (description "" .c).utf8ByteSize ≤ 1000 := by decide +kernel
  refine ⟨k, ?_, hk⟩
  rw [hk] at hleast
  exact le_trans (Nat.le_add_left _ _) hleast

theorem fits_lines {name language : List Char} (hname : IsPlainWord name)
    (hlanguage : IsPlainWord language) : Fits (lines name language) := by
  have hword : ∀ {w : List Char}, isKey w = true → IsPlainWord w := fun h =>
    (isPlainWord_of_isKey h).1
  -- Line by line; each one has a key and, behind it, nothing or a plain or a quoted text.
  refine fits_cons (isRight_bare (by decide +kernel) _) rfl ?_
  refine fits_cons (isRight_plain (by decide +kernel) _ hname) rfl ?_
  refine fits_cons (isRight_plain (by decide +kernel) _ (hword (by decide +kernel))) rfl ?_
  refine fits_cons (isRight_quoted (by decide +kernel) _ (by decide +kernel)) rfl ?_
  refine fits_cons (isRight_plain (by decide +kernel) _ hlanguage) rfl ?_
  refine fits_cons (isRight_bare (by decide +kernel) _) rfl ?_
  refine fits_cons (hword (by decide +kernel)) rfl ?_
  refine fits_cons (isRight_bare (by decide +kernel) _) rfl ?_
  refine fits_cons (isRight_plain (by decide +kernel) _ (hword (by decide +kernel))) rfl ?_
  refine fits_cons (isRight_quoted (by decide +kernel) _ (by decide +kernel)) rfl ?_
  refine fits_cons (isRight_bare (by decide +kernel) _) rfl ?_
  refine fits_cons (isRight_plain (by decide +kernel) _ (hword (by decide +kernel))) rfl ?_
  refine fits_cons (isRight_bare (by decide +kernel) _) rfl ?_
  refine fits_cons (isRight_plain (by decide +kernel) _ (hword (by decide +kernel))) rfl ?_
  refine fits_cons (isRight_bare (by decide +kernel) _) rfl ?_
  refine fits_cons (isRight_plain (by decide +kernel) _ (hword (by decide +kernel))) rfl ?_
  exact fits_cons (isRight_plain (by decide +kernel) _ (hword (by decide +kernel))) rfl trivial

/-! ### Nodes -/

/-- A plain scalar. -/
def plain (s : String) : Node := .scalar s .plain none

/-- A quoted scalar. -/
def quoted (s : String) : Node := .scalar s .explicit none

/-- The node of the description. -/
def root (name language : String) : Node :=
  .table none [
    (plain "api", .table none [
      (plain "name", plain name), (plain "version", plain "0.1.0"),
      (plain "description", quoted "TODO: describe your API"),
      (plain "impl_lang", plain language)]),
    (plain "flatbuffers", .list none [plain "schemas/types.fbs"]),
    (plain "handles", .list none [.table none [
      (plain "name", plain "Instance"), (plain "description", quoted "Main instance handle")]]),
    (plain "interfaces", .list none [.table none [
      (plain "name", plain "lifecycle"),
      (plain "constructors", .list none [.table none [
        (plain "name", plain "create_instance"),
        (plain "returns", .table none [(plain "type", plain "handle:Instance")]),
        (plain "error", plain "Common.ErrorCode")]])]])]

set_option maxRecDepth 20000 in
/-- The tokens of the lines are read into the node, whatever the two words in them are. -/
theorem run_document (name language : List Char) :
    (Node.document (tokensOf (lines name language)).length).run
        { tokens := tokensOf (lines name language) } =
      .ok (some (root (.ofList name) (.ofList language)),
        { tokens := [.streamEnd], tagLeads := Node.defaultLeads }) := by
  cbv

theorem document_description {name : String} (hname : isApiName name = true) (language : Language) :
    Yaml.document (description name language).toList =
      .ok ⟨some (root name language.name), []⟩ := by
  have hlanguage : IsPlainWord language.name.toList :=
    (isPlainWord_of_isKey (by cases language <;> decide +kernel)).1
  have hfits := fits_lines (isPlainWord_name hname) hlanguage
  have hrun := run_document name.toList language.name.toList
  rw [String.ofList_toList, String.ofList_toList] at hrun
  rw [toList_description]
  exact bind_eq_ok_iff.mpr ⟨_, tokens_textOf hfits, bind_eq_ok_iff.mpr ⟨_, hrun, rfl⟩⟩

/-! ### Trees -/

/-- What the description says about itself. -/
def metadata (name : Json) (language : Language) : List (String × Json) :=
  [("description", str "TODO: describe your API"), ("impl_lang", str language.name), ("name", name),
    ("version", str "0.1.0")]

/-- What the description declares. -/
def declarations : List (String × Json) :=
  [("flatbuffers", .arr [str "schemas/types.fbs"]),
    ("handles", .arr [.obj [
      ("description", str "Main instance handle"), ("name", str "Instance")]]),
    ("interfaces", .arr [.obj [
      ("constructors", .arr [.obj [
        ("error", str "Common.ErrorCode"), ("name", str "create_instance"),
        ("returns", .obj [("type", str "handle:Instance")])]]),
      ("name", str "lifecycle")]])]

/-- The tree of the description. -/
def tree (name : Json) (language : Language) : Json :=
  .obj (("api", .obj (metadata name language)) :: declarations)

section Stands

variable {d : Document} {limit : Nat}

/-- An entry of a table under a plain key. -/
theorem stands_entry {depth : Nat} {n : Node} {j : Json} (key : String)
    (h : d.Stands limit depth n j) :
    (∃ style tag, plain key = .scalar key style tag) ∧ d.Stands limit depth n j :=
  ⟨⟨_, _, rfl⟩, h⟩

/-- **The node stands for the tree**, in which the name is what it looks like. -/
theorem stands_root (depth : Nat) {name : String} {v : Json} (hname : plainValue name = .ok v)
    (language : Language) :
    d.Stands limit (depth + 7) (root name language.name) (tree v language) := by
  -- the entries of the tree in the order of the text, in which they are inserted
  have hsorted : ofEntries [
      ("api", ofEntries [("name", v), ("version", str "0.1.0"),
        ("description", str "TODO: describe your API"), ("impl_lang", str language.name)]),
      ("flatbuffers", .arr [str "schemas/types.fbs"]),
      ("handles", .arr [ofEntries [
        ("name", str "Instance"), ("description", str "Main instance handle")]]),
      ("interfaces", .arr [ofEntries [
        ("name", str "lifecycle"),
        ("constructors", .arr [ofEntries [
          ("name", str "create_instance"),
          ("returns", ofEntries [("type", str "handle:Instance")]),
          ("error", str "Common.ErrorCode")]])]])] = tree v language := by cbv
  -- two points make no fraction
  have hversion : plainValue "0.1.0" = .ok (str "0.1.0") := by cbv
  have hword : ∀ {n : Nat} {s : String}, s.toList.head?.any Char.isAlpha = true →
      isNull s = false → bool? s = none → d.Stands limit n (plain s) (str s) :=
    fun hfirst hnull hbool => stands_plain (plainValue_eq_str hfirst hnull hbool)
  have hlanguage : d.Stands limit (depth + 5) (plain language.name) (str language.name) := by
    cases language <;> exact hword (by decide) (by decide) (by decide)
  rw [← hsorted]
  -- one goal for each of the four entries of the root
  refine stands_table (.cons (stands_entry _ (stands_table ?_))
    (.cons (stands_entry _ (stands_list ?_)) (.cons (stands_entry _ (stands_list ?_))
    (.cons (stands_entry _ (stands_list ?_)) .nil))))
  · exact .cons (stands_entry _ (stands_plain hname)) (.cons (stands_entry _ (stands_plain hversion))
      (.cons (stands_entry _ (stands_quoted _)) (.cons (stands_entry _ hlanguage) .nil)))
  · exact .cons (hword (by decide) (by decide) (by decide)) .nil
  · refine .cons (stands_table ?_) .nil
    exact .cons (stands_entry _ (hword (by decide) (by decide) (by decide)))
      (.cons (stands_entry _ (stands_quoted _)) .nil)
  · refine .cons (stands_table (.cons (stands_entry _ (hword (by decide) (by decide) (by decide)))
      (.cons (stands_entry _ (stands_list (.cons (stands_table ?_) .nil))) .nil))) .nil
    refine .cons (stands_entry _ (hword (by decide) (by decide) (by decide)))
      (.cons (stands_entry _ (stands_table ?_))
      (.cons (stands_entry _ (hword (by decide) (by decide) (by decide))) .nil))
    exact .cons (stands_entry _ (hword (by decide) (by decide) (by decide))) .nil

end Stands

/-- **The tree that the description writes.** -/
theorem load_description {name : String} (hname : isApiName name = true) (language : Language) :
    Yaml.load (description name language) = .ok (tree (wordValue name) language) := by
  refine bind_eq_ok_iff.mpr ⟨_, document_description hname language, ?_⟩
  have hstands : Document.Stands ⟨some (root name language.name), []⟩
      (100 * (root name language.name).parts) maxDepth (root name language.name)
      (tree (wordValue name) language) :=
    stands_root 121 (plainValue_name hname) language
  exact congrArg (Except.map Prod.fst) (hstands 0)

/-! ### Descriptions -/

/-- The tree has the shape of a description when its name has that of a name. -/
theorem fits_tree {name : Json} (hname : Shape.snakeName.fits name = true) (language : Language) :
    Shape.description.fits (tree name language) = true := by
  have hlanguage : language.name ∈ ["cpp", "rust", "go", "go-like", "c"] := by
    cases language <;> decide
  have hversion : (Shape.matching "^[0-9]+\\.[0-9]+\\.[0-9]+$" Shape.versionPattern).fits
      (str "0.1.0") = true := by cbv
  have hmetadata : Shape.metadata.fits (.obj (metadata name language)) = true := by
    simpa [Shape.metadata, Shape.fits, metadata, Shape.fitsProperty, hversion, hname, Shape.anyText,
      lookupEntry] using hlanguage
  rw [tree, Shape.description, Shape.fits, List.all_cons, Bool.and_eq_true, Bool.and_eq_true]
  refine ⟨⟨?_, by decide +kernel⟩, by simp [declarations, lookupEntry]⟩
  rw [Shape.fitsProperty, if_pos rfl, hmetadata]

/-- A name without the shape of one is the first thing that is found. -/
theorem check_tree {name : Json} {v : Shape.Violation}
    (hname : Shape.snakeName.check name = .error v) (language : Language) :
    Shape.description.check (tree name language) = .error ((v.below "name").below "api") := by
  have hlanguage : (Shape.word ["cpp", "rust", "go", "go-like", "c"]).check (str language.name) =
      .ok () := by
    rw [Shape.check]
    cases language <;> rfl
  have htext : Shape.anyText.check (str "TODO: describe your API") = .ok () := by
    rw [Shape.anyText, Shape.check]
  -- The name is checked before anything else fails, so its violation is the one reported.
  have hmetadata : Shape.metadata.check (.obj (metadata name language)) =
      .error (v.below "name") := by
    simp [Shape.metadata, Shape.check, metadata, Shape.checkEntries, Shape.checkProperty, hlanguage,
      hname, htext, Except.mapError, bind, Except.bind]
  simp [Shape.description, tree, Shape.check, Shape.checkEntries, Shape.checkProperty, hmetadata,
    Except.mapError, bind, Except.bind]

/-- The description itself. -/
def api (name : String) (language : Language) : Api where
  metadata := { name, version := "0.1.0", description := some "TODO: describe your API", language }
  schemas := ["schemas/types.fbs"]
  handles := [{ name := "Instance", description := some "Main instance handle" }]
  interfaces := [
    { name := "lifecycle",
      constructors := [
        { name := "create_instance", returns := some { type := "handle:Instance" },
          error := some "Common.ErrorCode" }] }]

section Loaded

variable {name : String} (hname : isApiName name = true) (language : Language)

include hname

theorem ofDocument_tree : Api.ofDocument (tree (.str name) language) = .ok (api name language) := by
  have hfits : Shape.snakeName.fits (.str name) = true := by
    rw [Shape.snakeName, Shape.matching, Shape.fits, Option.all_some, TextPattern.accepts,
      Pattern.matchesList_snakePattern, ← isApiName_eq, hname]
  have hmetadata : Metadata.ofJson? (.obj (metadata (.str name) language)) =
      some (api name language).metadata := by
    cases language <;> rfl
  have hread : Api.ofJson? (tree (.str name) language) = some (api name language) := by
    -- The parts are read one after another, and all of them but the metadata are fixed.
    refine Option.bind_eq_some_iff.mpr ⟨_, hmetadata, ?_⟩
    refine Option.bind_eq_some_iff.mpr ⟨_, rfl, ?_⟩
    refine Option.bind_eq_some_iff.mpr ⟨_, rfl, ?_⟩
    exact Option.bind_eq_some_iff.mpr ⟨_, rfl, rfl⟩
  exact ofDocument_eq_ok_iff.mpr ⟨fits_tree hfits language, hread⟩

/-- **A name that is not reserved is read back**, and so is the language. -/
theorem ofYaml_description (hfree : name ∉ reserved) :
    Api.ofYaml (description name language) = .ok (api name language) := by
  refine bind_eq_ok_iff.mpr ⟨_, mapError_eq_ok_iff.mpr (load_description hname language), ?_⟩
  rw [wordValue_name hname hfree]
  exact ofDocument_tree hname language

end Loaded

/-- **A reserved name is no text**, so the description does not have the shape of one. -/
theorem ofYaml_reserved {name : String} (hreserved : name ∈ reserved) (language : Language) :
    Api.ofYaml (description name language) =
      .error (.shape ⟨["api", "name"], .wrongType (wordValue name) "string"⟩) := by
  have hname : isApiName name = true := by
    revert name
    decide
  have hvalue : Shape.snakeName.check (wordValue name) =
      .error ⟨[], .wrongType (wordValue name) "string"⟩ := by
    -- Each reserved word is read as a value that is no text.
    simp only [reserved, List.mem_cons, List.not_mem_nil, or_false] at hreserved
    obtain rfl | rfl | rfl := hreserved
    all_goals
      rw [Shape.snakeName, Shape.matching, Shape.check]
      · rfl
      · intro s hs
        cases hs
  have hcheck := check_tree hvalue language
  unfold Api.ofYaml
  rw [load_description hname language]
  unfold Api.ofDocument
  simp only [Except.mapError, bind, Except.bind, hcheck]
  rfl

/-! ### The schema -/

/-- The definition of the errors. -/
def errorCode : TypeDef where
  kind := .enum
  scope := "Common"
  base := some .int32
  values := [⟨"Ok", 0⟩, ⟨"InvalidArgument", 1⟩, ⟨"OutOfMemory", 2⟩, ⟨"NotFound", 3⟩,
    ⟨"InternalError", 4⟩]

/-- The types of the schema. -/
def types : Schema := Keyed.empty.insert "Common.ErrorCode" errorCode

theorem definitionsIn_schema :
    Schema.definitionsIn schema = [("Common.ErrorCode", errorCode)] := by
  unfold schema
  rw [Schema.definitionsIn_eq, String.toList_append, String.toList_ofList, String.toList_ofList]
  decide +kernel

theorem types_read : types.IsRead := by
  have hparse : Schema.parse schema = .ok types := by
    unfold Schema.parse
    rw [definitionsIn_schema]
    rfl
  exact .text hparse

theorem eq_errorCode {n : String} {d : TypeDef} (h : types.get? n = some d) :
    n = "Common.ErrorCode" ∧ d = errorCode := by
  have hmem := Keyed.get?_eq_some_iff.mp h
  have hentries : types.entries = [("Common.ErrorCode", errorCode)] := rfl
  rw [hentries, List.mem_singleton] at hmem
  exact Prod.mk.inj hmem

theorem hasFailure_types : types.HasFailure "Common.ErrorCode" :=
  ⟨errorCode, rfl, ⟨"InvalidArgument", 1⟩, by decide⟩

/-- **A new description is valid** under every name. -/
theorem validate_api (name : String) (language : Language) :
    (api name language).validate (some types) = [] := by
  -- validation does not look at what the description says about itself
  have hsame : (api name language).validate (some types) = (api "" .c).validate (some types) := rfl
  rw [hsame]
  decide

/-! ### Emitters -/

section Emitted

variable {ctx : Context} {name : String} {language : Language}
  (hapi : ctx.api = api name language) (htypes : ctx.types = types)

include hapi htypes

theorem reports_starter : ∀ m ∈ ctx.api.authored, ctx.Reports m := by
  have herrors : ∀ m ∈ ctx.api.authored, m.error = some "Common.ErrorCode" := by
    rw [hapi]
    exact List.forall_mem_singleton.mpr rfl
  intro m hm e he
  obtain rfl : "Common.ErrorCode" = e := Option.some.inj ((herrors m hm).symm.trans he)
  rw [htypes]
  exact hasFailure_types

/-- **Every emitter can express a new description**: the only type is an enumeration with a failure
and without fields. -/
theorem canExpress_starter (e : Emitter) : e.CanExpress ctx := by
  have hreports := reports_starter hapi htypes
  have hfields : ∀ n d, ctx.types.get? n = some d → d.fields = [] := by
    intro n d hd
    rw [htypes] at hd
    rw [(eq_errorCode hd).2]
    rfl
  have hvalues : ∀ n d, ctx.types.get? n = some d → d.values = errorCode.values := by
    intro n d hd
    rw [htypes] at hd
    rw [(eq_errorCode hd).2]
  -- what has no fields holds nothing
  have hacyclic : ctx.types.Acyclic := by
    intro n hcycle
    obtain ⟨m, ⟨d, hd, -, hm, -⟩, -⟩ := Relation.TransGen.head'_iff.mp hcycle
    rw [hfields _ d hd] at hm
    cases hm
  have hnone : ∀ {n d f}, ctx.types.get? n = some d → f ∉ d.fields := by
    intro n d f hd
    rw [hfields n d hd]
    exact List.not_mem_nil
  have hdispatch : Go.CanDispatch ctx := fun i hi m hm =>
    hreports m (List.mem_flatMap.mpr
      ⟨i, hi, List.mem_append_right _ (List.mem_filter.mp hm).1⟩)
  -- what an emitter asks for is about fields, about values or about errors
  cases e with
  | cHeader | cppBuild | rustBuild | goBuild | platformServices => trivial
  | kotlin => exact fun n d _ hd f hf => absurd hf (hnone hd)
  | swift =>
    intro e d _ hd
    rw [hvalues e d hd]
    exact List.cons_ne_nil _ _
  | javaScript => exact ⟨hacyclic, fun n d hd _ f hf => absurd hf (hnone hd)⟩
  | cppSkeleton =>
    intro i hi c hc
    exact hreports c (List.mem_flatMap.mpr ⟨i, hi, List.mem_append_left _ hc⟩)
  | goSkeleton => exact hdispatch
  | goWasm => exact ⟨hacyclic, hdispatch⟩
  | cBuild =>
    intro e he
    have herrorTypes : ctx.api.errorTypes = ["Common.ErrorCode"] := by rw [hapi]; rfl
    rw [herrorTypes, List.mem_singleton] at he
    rw [he, htypes]
    exact hasFailure_types
  | rustSkeleton =>
    refine ⟨fun n d hd _ => ?_, fun n d hd _ f hf => absurd hf (hnone hd)⟩
    rw [hvalues n d hd]
    decide

end Emitted

end Bindery.Starter
