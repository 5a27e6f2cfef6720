import Bindery.Proofs.Commentary.Lines
import Bindery.Proofs.Commentary.Undescribed
import Bindery.Proofs.Names.Description

/-!
# Descriptions and the code around them

The text of a description is the user's, and it goes into the files as a comment. The Swift file
shows the descriptions of handles, constructors and methods (`Swift.shown`), and of the Go files the
one with the interfaces shows the descriptions of interfaces (`Go.shown`). For two APIs that differ
in their descriptions only, what remains of the files without comment lines should be the same.

It is the same as long as descriptions are of one line. A description of several lines, which YAML
writes as a block, is put behind one mark, and from the second line on it is code. So the code of
the two APIs agrees exactly as far as the descriptions stay in their comments
(`descriptions_only_in_comments_iff`), and a valid API need not see to that (`description_spills`).

The files of an API are compared with those of the API without descriptions: the emission carries
descriptions along (`Swift.ofContext_undescribed` and its companions), and the files are the bare
ones with comments put in (`Annotates`).
-/

namespace Bindery

open Text

/-! ### Emitters and comments -/

/-- The path of a file, and what is left of its text without the comment lines. -/
def Artifact.code (f : Artifact) : String × List (List Char) := (f.path, codeLines f.content.toList)

/-- **Two outcomes fail alike, or they give files whose code agrees exactly if a condition
holds.** -/
def SameCodeIff (x y : Except Fault (List Artifact)) (condition : Prop) : Prop :=
  (∃ fault, x = .error fault ∧ y = .error fault) ∨
    ∃ files others, x = .ok files ∧ y = .ok others ∧
      (files.map Artifact.code = others.map Artifact.code ↔ condition)

/-- Outcomes are compared by way of a third one, which the first agrees with. -/
theorem SameCodeIff.compare {x y bare : Except Fault (List Artifact)} {p q : Prop}
    (hx : SameCodeIff x bare p) (hy : SameCodeIff y bare q) (hp : p) : SameCodeIff x y q := by
  -- Both are compared with the undescribed one, which fails for both or for neither.
  rcases hx with ⟨fault, rfl, rfl⟩ | ⟨files, common, rfl, rfl, hfiles⟩
  · rcases hy with ⟨fault', rfl, hbare⟩ | ⟨_, _, -, hbare, -⟩
    · obtain rfl := Except.error.inj hbare
      exact .inl ⟨fault, rfl, rfl⟩
    · cases hbare
  · rcases hy with ⟨_, -, hbare⟩ | ⟨others, common', rfl, hbare, hothers⟩
    · cases hbare
    · obtain rfl := Except.ok.inj hbare
      refine .inr ⟨files, others, rfl, rfl, ?_⟩
      rw [hfiles.mpr hp, ← hothers]
      exact eq_comm

theorem SameCodeIff.map_eq {x y : Except Fault (List Artifact)} {p : Prop} (h : SameCodeIff x y p)
    (hp : p) : x.map (·.map Artifact.code) = y.map (·.map Artifact.code) := by
  rcases h with ⟨fault, rfl, rfl⟩ | ⟨files, others, rfl, rfl, hcode⟩
  · rfl
  · exact congrArg Except.ok (hcode.mpr hp)

theorem SameCodeIff.map_ne {x y : Except Fault (List Artifact)} {p : Prop} (h : SameCodeIff x y p)
    (hok : x.isOk = true) (hp : ¬ p) :
    x.map (·.map Artifact.code) ≠ y.map (·.map Artifact.code) := by
  rcases h with ⟨fault, rfl, rfl⟩ | ⟨files, others, rfl, rfl, hcode⟩
  · cases hok
  · intro heq
    exact hp (hcode.mp (Except.ok.inj heq))

/-- What the results of some steps have, list by list, if each has it from its own step. -/
theorem flatMap_of_mapM {ε α β γ : Type} {f : α → Except ε β} {g : α → List γ} {k : β → List γ}
    {xs : List α} {ys : List β} (h : xs.mapM f = .ok ys)
    (hstep : ∀ x y, f x = .ok y → k y = g x) : ys.flatMap k = xs.flatMap g := by
  have hpairs := mapM_eq_ok_iff.mp h
  clear h
  induction hpairs with
  | nil => rfl
  | cons hxy _ ih => rw [List.flatMap_cons, List.flatMap_cons, hstep _ _ hxy, ih]

/-- A banner ends in a line feed. -/
theorem exists_banner (ctx : Context) :
    ∃ front, (ctx.generatedBanner .slash).toList = front ++ ['\n'] := by
  have hend : (toString "`.\n\n").toList = ['`', '.', '\n'] ++ ['\n'] := rfl
  unfold Context.generatedBanner Banner.generated
  dsimp only
  rw [String.toList_append, String.toList_append (t := toString "`.\n\n"), hend,
    ← List.append_assoc, ← List.append_assoc]
  exact ⟨_, rfl⟩

/-- A generated file is compared with the same file of the API without descriptions. -/
theorem code_generatedFile_eq_iff {ctx : Context} {path unit : String} {ds : List String}
    {ls bare : List Line} (hunit : IsIndentation unit) (h : Annotates ds ls bare) :
    (ctx.generatedFile path unit ls).code = (ctx.undescribed.generatedFile path unit bare).code ↔
      ∀ d ∈ ds, StaysInComment d := by
  obtain ⟨front, hfront⟩ := exists_banner ctx
  -- The banner is the same for both, so the code behind it decides.
  have hcode : ∀ lines, codeLines (ctx.generatedFile path unit lines).content.toList =
      codeLines front ++ (lines.flatMap (Line.code unit) ++ [[]]) := by
    intro lines
    rw [Context.generatedFile, String.toList_append, hfront, List.append_assoc,
      List.singleton_append, codeLines_append_newline, codeLines_render]
  have hbare : (ctx.undescribed.generatedFile path unit bare).code =
      (ctx.generatedFile path unit bare).code := rfl
  rw [hbare, Artifact.code, Artifact.code, Prod.mk.injEq, hcode, hcode, List.append_cancel_left_eq,
    List.append_cancel_right_eq, h.code_eq_iff hunit]
  exact and_iff_right rfl

/-! ### Swift -/

namespace Swift

/-- **The descriptions that the Swift file shows**: those of the handles, of the constructors that
return one of them, and of the methods. -/
def shown (a : Api) : List String :=
  (a.handles.flatMap fun h => h.description.toList ++
      (HandleClass.constructors a h.name ++ HandleClass.methods a h.name).flatMap
        fun op => op.method.description.toList)
    ++ (freeMethods a).flatMap fun op => op.method.description.toList

theorem annotates_function (f : Function) :
    Annotates f.description.toList f.lines f.undescribed.lines := by
  -- The scopes around the call do not look at the description.
  have hwithin : ∀ outermost inner scopes,
      f.undescribed.within outermost inner scopes = f.within outermost inner scopes := by
    intro outermost inner scopes
    induction scopes generalizing outermost with
    | nil => rfl
    | cons scope rest ih =>
      rw [Function.within, Function.within, ih]
      rfl
  have hbare : f.undescribed.lines =
      [] ++ Code.block f.head (f.within true f.callLines f.scopes) := by
    rw [Function.lines, hwithin]
    rfl
  rw [hbare, Function.lines]
  exact (Annotates.ofDescription (by decide) f.description).append_right _

/-- The descriptions in the class of a handle. -/
def HandleClass.descriptions (c : HandleClass) : List String :=
  c.handle.description.toList ++ c.functions.flatMap fun f => f.description.toList

/-- A function with an empty line in front. -/
theorem annotates_spaced (f : Function) :
    Annotates f.description.toList ([Line.blank] ++ f.lines)
      ([Line.blank] ++ f.undescribed.lines) :=
  (annotates_function f).append_left _

theorem annotates_class (c : HandleClass) :
    Annotates c.descriptions c.lines c.undescribed.lines := by
  have hfunctions : Annotates (c.functions.flatMap fun f => f.description.toList)
      (c.functions.flatMap fun f => [Line.blank] ++ f.lines)
      (c.undescribed.functions.flatMap fun f => [Line.blank] ++ f.lines) := by
    rw [HandleClass.undescribed, List.flatMap_map]
    exact Annotates.flatMap fun f _ => annotates_spaced f
  exact ((Annotates.ofDescription (by decide) c.handle.description).append
    ((hfunctions.append_left _).block _)).append_right _

theorem annotates_namespace (name : String) (fs : List Function) :
    Annotates (fs.flatMap fun f => f.description.toList) (namespaceLines name fs)
      (namespaceLines name (fs.map Function.undescribed)) := by
  cases fs with
  | nil => exact .nil
  | cons f rest =>
    have hrest : Annotates (rest.flatMap fun g => g.description.toList)
        (rest.flatMap fun g => [Line.blank] ++ g.lines)
        ((rest.map Function.undescribed).flatMap fun g => [Line.blank] ++ g.lines) := by
      rw [List.flatMap_map]
      exact Annotates.flatMap fun g _ => annotates_spaced g
    exact (((annotates_function f).append hrest).block _).append_right _

/-- The descriptions in the Swift file. -/
def Source.descriptions (s : Source) : List String :=
  s.classes.flatMap HandleClass.descriptions ++ s.free.flatMap fun f => f.description.toList

theorem annotates_source (ctx : Context) (s : Source) :
    Annotates s.descriptions (s.lines ctx) (s.undescribed.lines ctx.undescribed) := by
  have hclasses : Annotates (s.classes.flatMap HandleClass.descriptions)
      (s.classes.flatMap HandleClass.lines) (s.undescribed.classes.flatMap HandleClass.lines) := by
    rw [Source.undescribed, List.flatMap_map]
    exact Annotates.flatMap fun c _ => annotates_class c
  exact (hclasses.append_left _).append (annotates_namespace ctx.pascalApi s.free)

theorem description_ofOperation {ctx : Context} {isStatic : Bool} {op : Operation} {f : Function}
    (h : Function.ofOperation ctx isStatic op = .ok f) : f.description = op.method.description := by
  unfold Function.ofOperation at h
  dsimp only at h
  obtain ⟨lowered, -, h⟩ := bind_eq_ok_iff.mp h
  split at h
  all_goals
    obtain ⟨result, -, h⟩ := bind_eq_ok_iff.mp h
    obtain rfl := pure_eq_ok_iff.mp h
    rfl

/-- The functions of some operations have their descriptions. -/
theorem descriptions_of_mapM {ctx : Context} {isStatic : Bool} {ops : List Operation}
    {fs : List Function} (h : ops.mapM (Function.ofOperation ctx isStatic) = .ok fs) :
    fs.flatMap (fun f => f.description.toList) =
      ops.flatMap fun op => op.method.description.toList :=
  flatMap_of_mapM h fun _ _ hf => congrArg Option.toList (description_ofOperation hf)

theorem descriptions_ofHandle {ctx : Context} {h : Handle} {c : HandleClass}
    (hc : HandleClass.ofHandle ctx h = .ok c) :
    c.descriptions = h.description.toList ++
      (HandleClass.constructors ctx.api h.name ++ HandleClass.methods ctx.api h.name).flatMap
        fun op => op.method.description.toList := by
  obtain ⟨makers, hmakers, hc⟩ := bind_eq_ok_iff.mp hc
  obtain ⟨others, hothers, hc⟩ := bind_eq_ok_iff.mp hc
  obtain rfl := pure_eq_ok_iff.mp hc
  rw [HandleClass.descriptions, List.flatMap_append, List.flatMap_append,
    descriptions_of_mapM hmakers, descriptions_of_mapM hothers]

/-- The file shows what it should. -/
theorem descriptions_ofContext {ctx : Context} {s : Source} (h : Source.ofContext ctx = .ok s) :
    s.descriptions = shown ctx.api := by
  obtain ⟨errors, -, h⟩ := bind_eq_ok_iff.mp h
  obtain ⟨classes, hclasses, h⟩ := bind_eq_ok_iff.mp h
  obtain ⟨free, hfree, h⟩ := bind_eq_ok_iff.mp h
  obtain rfl := pure_eq_ok_iff.mp h
  rw [Source.descriptions, shown, descriptions_of_mapM hfree,
    flatMap_of_mapM hclasses fun _ _ hc => descriptions_ofHandle hc]

/-- **The Swift file and the one without descriptions.** -/
theorem sameCodeIff_undescribed (ctx : Context) :
    SameCodeIff (emit ctx) (emit ctx.undescribed)
      (∀ d ∈ shown ctx.api, StaysInComment d) := by
  unfold emit
  rw [ofContext_undescribed]
  cases hs : Source.ofContext ctx with
  | error fault => exact .inl ⟨fault, rfl, rfl⟩
  | ok s =>
    refine .inr ⟨_, _, rfl, rfl, ?_⟩
    rw [← descriptions_ofContext hs, List.map_singleton, List.map_singleton, List.singleton_inj]
    exact code_generatedFile_eq_iff isIndentation_fourBlanks (annotates_source ctx s)

end Swift

/-! ### Go -/

namespace Go

/-- **The descriptions that the Go interface file shows**: those of the interfaces with a method on
a handle. -/
def shown (a : Api) : List String :=
  (a.interfaces.filter fun i => !(dispatched i).isEmpty).flatMap fun i => i.description.toList

theorem annotates_decl (d : InterfaceDecl) :
    Annotates d.description.toList d.lines d.undescribed.lines := by
  have hdescription :
      Annotates d.description.toList (d.description.toList.map Code.comment) [] := by
    cases d.description with
    | none => exact .nil
    | some text => exact .note (by decide) 0 text .nil
  exact (hdescription.append_left _).append_right _

theorem annotates_interfaceFile (decls : List InterfaceDecl) :
    Annotates (decls.flatMap fun d => d.description.toList) (interfaceFile decls)
      (interfaceFile (decls.map InterfaceDecl.undescribed)) := by
  rw [interfaceFile, interfaceFile, List.flatMap_map]
  exact (Annotates.flatMap fun d _ => annotates_decl d).append_left _

/-- The file shows what it should. -/
theorem descriptions_interfaceDecls {a : Api} {decls : List InterfaceDecl}
    (h : interfaceDecls a = .ok decls) :
    decls.flatMap (fun d => d.description.toList) = shown a := by
  refine flatMap_of_mapM h fun i d hd => ?_
  obtain ⟨methods, -, hd⟩ := bind_eq_ok_iff.mp hd
  obtain rfl := pure_eq_ok_iff.mp hd
  rfl

/-- The other files show no descriptions. -/
theorem cgoFile_undescribed (ctx : Context) (exports : List (Interface × List CgoExport)) :
    cgoFile ctx.undescribed (exports.map fun e => (e.1.undescribed, e.2)) =
      cgoFile ctx exports := by
  have hpreamble : preamble ctx.undescribed = preamble ctx := by
    have htypedefs : Abi.handleTypedefs ctx.undescribed.api.handles =
        Abi.handleTypedefs ctx.api.handles := by
      rw [Abi.handleTypedefs, Abi.handleTypedefs, show ctx.undescribed.api.handles =
        ctx.api.handles.map Handle.undescribed from rfl, List.map_map, List.isEmpty_map]
      rfl
    rw [preamble, preamble, htypedefs]
    rfl
  rw [cgoFile, cgoFile, hpreamble, List.flatMap_map]
  rfl

theorem typesFile_undescribed (ctx : Context) : typesFile ctx.undescribed = typesFile ctx := by
  have herrors : ctx.undescribed.api.errorTypes = ctx.api.errorTypes :=
    ctx.api.errorTypes_undescribed
  rw [typesFile, typesFile, herrors]
  rfl

/-- **The Go files and those without descriptions.** Only the file of interfaces can differ. -/
theorem sameCodeIff_undescribed (ctx : Context) :
    SameCodeIff (emit ctx) (emit ctx.undescribed)
      (∀ d ∈ shown ctx.api, StaysInComment d) := by
  -- Everything but the interface file is blind to descriptions, so the two runs fail alike.
  have hdecls : interfaceDecls ctx.undescribed.api = _ := interfaceDecls_undescribed ctx.api
  have himpls : ctx.undescribed.api.handles.mapM
        (fun h => HandleImpl.ofHandle ctx.undescribed h.name) =
      ctx.api.handles.mapM fun h => HandleImpl.ofHandle ctx h.name :=
    mapM_map_of_blind fun h _ => handleImpl_undescribed ctx h.name
  unfold emit
  dsimp only
  rw [hdecls, cgoExports_undescribed, himpls]
  cases hs : interfaceDecls ctx.api with
  | error fault => exact .inl ⟨fault, rfl, rfl⟩
  | ok decls =>
    cases cgoExports ctx with
    | error fault => exact .inl ⟨fault, rfl, rfl⟩
    | ok exports =>
      cases ctx.api.handles.mapM fun h => HandleImpl.ofHandle ctx h.name with
      | error fault => exact .inl ⟨fault, rfl, rfl⟩
      | ok impls =>
        refine .inr ⟨_, _, rfl, rfl, ?_⟩
        -- Of the three files one shows descriptions, and its code says whether they stay.
        have hinterfaces :
            (ctx.generatedFile (ctx.apiName ++ "_interface.go") Code.tab
                (interfaceFile decls)).code =
              (ctx.undescribed.generatedFile (ctx.apiName ++ "_interface.go") Code.tab
                (interfaceFile (decls.map InterfaceDecl.undescribed))).code ↔
              ∀ d ∈ decls.flatMap fun d => d.description.toList, StaysInComment d :=
          code_generatedFile_eq_iff isIndentation_tab (annotates_interfaceFile decls)
        rw [← descriptions_interfaceDecls hs, ← hinterfaces, cgoFile_undescribed,
          typesFile_undescribed]
        simp only [List.cons_append, List.nil_append, List.map_cons, List.cons.injEq]
        exact and_iff_left ⟨rfl, rfl⟩

end Go

/-! ### Two APIs -/

/-- **Descriptions stay out of the code as far as they stay in their comments.** Take two APIs that
differ in their descriptions only, and let those that the files of the first one show stay in their
comments. The Swift emitter fails for both alike, or the files without comment lines are the same
exactly when the descriptions that the Swift file of the second one shows stay in their comments
too; and likewise the Go emitter. -/
theorem descriptions_only_in_comments_iff {ctx other : Context}
    (same : ctx.undescribed = other.undescribed)
    (hswift : ∀ d ∈ Swift.shown ctx.api, StaysInComment d)
    (hgo : ∀ d ∈ Go.shown ctx.api, StaysInComment d) :
    SameCodeIff (Swift.emit ctx) (Swift.emit other)
        (∀ d ∈ Swift.shown other.api, StaysInComment d) ∧
      SameCodeIff (Go.emit ctx) (Go.emit other) (∀ d ∈ Go.shown other.api, StaysInComment d) := by
  have hbareSwift := Swift.sameCodeIff_undescribed other
  have hbareGo := Go.sameCodeIff_undescribed other
  rw [← same] at hbareSwift hbareGo
  exact ⟨(Swift.sameCodeIff_undescribed ctx).compare hbareSwift hswift,
    (Go.sameCodeIff_undescribed ctx).compare hbareGo hgo⟩

/-- An API with descriptions of a handle, of an interface and of its methods. -/
def lampContext (handle interface : Option String) : Context where
  api :=
    { metadata := { name := "demo", version := "1.0.0", language := .go }
      schemas := ["demo.fbs"]
      handles := [{ name := "Lamp", description := handle }]
      interfaces := [
        { name := "lamp"
          description := interface
          methods := [
            { name := "dim"
              description := some "Lowers the light.\n  // Not below one."
              parameters := [⟨"lamp", "handle:Lamp", none, some "The lamp."⟩] }] }] }
  types := Keyed.empty

/-- Descriptions of one line, and one with a comment in its second line. -/
def shortLamp : Context := lampContext (some "A light.") none

def markedLamp : Context := lampContext none (some "Lights.\n// All of them.")

/-- Descriptions of two lines, as YAML reads a block. -/
def blockLamp : Context :=
  lampContext (some "A light.\nIt can be dimmed.") (some "Lights.\nThey can be dimmed.")

theorem descriptions_only_in_comments_lamp :
    shortLamp.undescribed = markedLamp.undescribed ∧
      (∀ d ∈ Swift.shown shortLamp.api, StaysInComment d) ∧
      (∀ d ∈ Go.shown shortLamp.api, StaysInComment d) ∧
      (Swift.emit shortLamp).map (·.map Artifact.code) =
        (Swift.emit markedLamp).map (·.map Artifact.code) ∧
      (Go.emit shortLamp).map (·.map Artifact.code) =
        (Go.emit markedLamp).map (·.map Artifact.code) := by
  have hswift : ∀ d ∈ Swift.shown shortLamp.api, StaysInComment d := by decide +kernel
  have hgo : ∀ d ∈ Go.shown shortLamp.api, StaysInComment d := by decide +kernel
  have same : shortLamp.undescribed = markedLamp.undescribed := rfl
  obtain ⟨hswiftCode, hgoCode⟩ := descriptions_only_in_comments_iff same hswift hgo
  exact ⟨same, hswift, hgo, hswiftCode.map_eq (by decide +kernel),
    hgoCode.map_eq (by decide +kernel)⟩

/-- **A valid API whose descriptions spill into the code.** The second line of each is no
comment. -/
theorem description_spills :
    Api.ofDocument blockLamp.api.toJson = .ok blockLamp.api ∧
      blockLamp.api.validate (some blockLamp.types) = [] ∧
      Api.ofDocument shortLamp.api.toJson = .ok shortLamp.api ∧
      shortLamp.api.validate (some shortLamp.types) = [] ∧
      shortLamp.undescribed = blockLamp.undescribed ∧
      (Swift.emit shortLamp).map (·.map Artifact.code) ≠
        (Swift.emit blockLamp).map (·.map Artifact.code) ∧
      (Go.emit shortLamp).map (·.map Artifact.code) ≠
        (Go.emit blockLamp).map (·.map Artifact.code) := by
  -- Both contexts have the same undescribed one. Where one of them stays in its comments and the
  -- other does not, the code differs.
  have hswift : SameCodeIff (Swift.emit shortLamp) (Swift.emit blockLamp)
      (∀ d ∈ Swift.shown blockLamp.api, StaysInComment d) :=
    (Swift.sameCodeIff_undescribed shortLamp).compare (Swift.sameCodeIff_undescribed blockLamp)
      (by decide +kernel)
  have hgo : SameCodeIff (Go.emit shortLamp) (Go.emit blockLamp)
      (∀ d ∈ Go.shown blockLamp.api, StaysInComment d) :=
    (Go.sameCodeIff_undescribed shortLamp).compare (Go.sameCodeIff_undescribed blockLamp)
      (by decide +kernel)
  exact ⟨ofDocument_eq_ok_iff.mpr (by decide +kernel), by decide +kernel,
    ofDocument_eq_ok_iff.mpr (by decide +kernel), by decide +kernel, rfl,
    hswift.map_ne (by decide +kernel) (by decide +kernel),
    hgo.map_ne (by decide +kernel) (by decide +kernel)⟩

end Bindery
