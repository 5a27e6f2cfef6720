import Bindery.Proofs.Coverage.Kotlin
import Bindery.Proofs.Coverage.Swift
import Bindery.Proofs.Names.Escapes
import Bindery.Proofs.Wasm.Mentions

/-!
# No operation is lost or doubled in the bindings

The files of the Kotlin and of the Swift binding declare one thing for each operation, and nothing
else of that kind: this is what `Covered` says of what is read off their lines. It does not say
that a declaration is the only one of its name, and it need not be. Names are told apart by
validation as the description writes them, while the bindings write them in another case:

* `exists_filter_iff` — among things made for operations one is the only one of its name exactly
  when no other operation has the name;
* `pascalName_eq_iff` — the native functions of two operations have one name exactly when the
  joined names of interface and method condense alike;
* `operations_covered` — the declarations of the files, and when each of them is alone under its
  name (`NamedOnce`);
* `doubled_bridges_deck` — a valid description whose files declare a native function twice, and
  two bridges behind it.
-/

namespace Bindery

open Validate (Conforms)
open Naming (condense pascalCase)

/-! ### Alone under a name -/

/-- **One of the things is the only one of its name exactly when no other member has the name**,
where the things were made for the members, one for each. -/
theorem exists_filter_iff {α β : Type} {made named : α → β → Prop} {alike : α → α → Prop}
    [∀ x, DecidablePred (named x)] {xs : List α} {ys : List β} (h : OneForEach made xs ys)
    (hxs : xs.Nodup)
    (halike : ∀ x ∈ xs, ∀ x' ∈ xs, ∀ y, made x' y → (named x y ↔ alike x' x))
    (hrefl : ∀ x, alike x x) (x : α) (hx : x ∈ xs) :
    (∃ y, ys.filter (named x ·) = [y]) ↔ ∀ x' ∈ xs, alike x' x → x' = x := by
  classical
  obtain ⟨order, hperm, hmade⟩ := h
  -- as many things have the name as members have it
  have hcount : (ys.filter (named x ·)).length = (xs.filter (alike · x)).length := by
    rw [← (hperm.filter (alike · x)).length_eq]
    have hmem : ∀ x' ∈ order, x' ∈ xs := fun x' => hperm.mem_iff.mp
    clear hperm
    induction hmade with
    | nil => rfl
    | @cons x' y order ys hy _ ih =>
      obtain ⟨hx', hrest⟩ := List.forall_mem_cons.mp hmem
      have hiff := halike x hx x' hx' y hy
      rw [List.filter_cons, List.filter_cons]
      by_cases hnamed : named x y
      · rw [if_pos (by simpa using hnamed), if_pos (by simpa using hiff.mp hnamed),
          List.length_cons, List.length_cons, ih hrest]
      · rw [if_neg (by simpa using hnamed),
          if_neg (by simpa using fun halike => hnamed (hiff.mpr halike)), ih hrest]
  rw [← List.length_eq_one_iff, hcount, List.length_eq_one_iff]
  constructor
  · rintro ⟨x₀, hx₀⟩ x' hx' hsame
    have hself : x ∈ xs.filter (alike · x) := List.mem_filter.mpr ⟨hx, by simpa using hrefl x⟩
    have hother : x' ∈ xs.filter (alike · x) := List.mem_filter.mpr ⟨hx', by simpa using hsame⟩
    rw [hx₀, List.mem_singleton] at hself hother
    rw [hself, hother]
  · intro hunique
    refine ⟨x, (List.perm_singleton.mp ?_)⟩
    rw [List.perm_ext_iff_of_nodup (hxs.filter _) (List.nodup_singleton x)]
    intro x'
    rw [List.mem_filter, List.mem_singleton, decide_eq_true_eq]
    constructor
    · rintro ⟨hx', hsame⟩
      exact hunique x' hx' hsame
    · rintro rfl
      exact ⟨hx, hrefl x'⟩

/-! ### The names of native functions -/

namespace Naming

theorem pascalFrom_append_underscore (raised : Bool) (cs ds : List Char) :
    pascalFrom raised (cs ++ '_' :: ds) = pascalFrom raised cs ++ pascalFrom true ds := by
  induction cs generalizing raised with
  | nil => exact pascalFrom_underscore raised ds
  | cons c cs ih =>
    by_cases hc : c = '_'
    · subst hc
      rw [List.cons_append, pascalFrom_underscore, pascalFrom_underscore, ih]
    · rw [List.cons_append, pascalFrom_cons hc, pascalFrom_cons hc, ih, List.cons_append]

/-- Pascal case goes word by word. -/
theorem pascalCase_append_underscore (s t : String) :
    pascalCase (s ++ "_" ++ t) = pascalCase s ++ pascalCase t := by
  have hline : "_".toList = ['_'] := rfl
  apply String.toList_injective
  rw [String.toList_append, toList_pascalCase, toList_pascalCase, toList_pascalCase,
    String.toList_append, String.toList_append, hline, List.append_assoc, List.singleton_append,
    pascalFrom_append_underscore]

end Naming

/-- The name of an operation, with the one of its interface in front. -/
def Operation.joinedName (op : Operation) : String := op.interface.name ++ "_" ++ op.method.name

section Names

variable {a : Api} (named : a.SnakeNamed) {op op' : Operation} (hop : op ∈ a.operations)
  (hop' : op' ∈ a.operations)

include named hop

theorem isSnakeIdentifier_interface : isSnakeIdentifier op.interface.name = true := by
  obtain ⟨i, hi, hmem⟩ := List.mem_flatMap.mp hop
  rw [interface_of_mem_operations hmem]
  exact (named.interfaces i hi).name

theorem isSnakeIdentifier_joinedName : isSnakeIdentifier op.joinedName = true := by
  have hline : isSnakeIdentifier (op.interface.name ++ "_") = true :=
    isSnakeIdentifier_append (isSnakeIdentifier_interface named hop)
      (List.forall_mem_singleton.mpr rfl)
  exact isSnakeIdentifier_append hline (isSnakeTail_of_mem (named.of_mem_operations hop))

include hop'

/-- **Two operations have one name in Pascal case** exactly when their joined names condense
alike. -/
theorem pascalName_eq_iff :
    op.pascalName = op'.pascalName ↔ condense op.joinedName = condense op'.joinedName := by
  rw [Operation.pascalName, Operation.pascalName, ← Naming.pascalCase_append_underscore,
    ← Naming.pascalCase_append_underscore]
  exact Naming.pascalCase_eq_iff (isSnakeIdentifier_joinedName named hop)
    (isSnakeIdentifier_joinedName named hop')

end Names

/-! ### What is read off the files -/

/-- **The declarations of both bindings**: those of the Kotlin file, of the C file below it and of
the Swift file are one for each operation, and there are no others. -/
structure Covered (ctx : Context) (source bridge library : List Line) : Prop where
  /-- No operation is listed twice. -/
  distinct : ctx.api.operations.Nodup
  /-- Each constructor and each method has a function in the Kotlin file and one in the Swift
  file. -/
  wrappers : OneForEach (Kotlin.WrapsIn ctx) ctx.api.written (Kotlin.functionsIn source)
  functions : OneForEach (Swift.ExposesIn ctx) ctx.api.written (Swift.functionsIn library)
  /-- Each operation, destructors included, has a native function and a bridge behind it. -/
  externals : OneForEach (Kotlin.DeclaresIn ctx) ctx.api.operations (Kotlin.externalsIn source)
  bridges : OneForEach (Kotlin.BridgesIn ctx) ctx.api.operations (Kotlin.bridgesIn bridge)

/-- The function stands in the place of the operation and has its name. -/
def Kotlin.NamesWrapper (ctx : Context) (op : Operation) (d : String × String × List Line) : Prop :=
  d.1 = Kotlin.placeHead ctx (Kotlin.placeOf op) ∧
    Code.nameIn d.2.1 = Kotlin.identifier op.method.name

/-- The function stands in the class that the operation belongs to and has its name. -/
def Swift.NamesFunction (ctx : Context) (op : Operation) (d : String × String × List Line) : Prop :=
  d.1 = Swift.placeHead ctx (Swift.home op) ∧ Code.nameIn d.2.1 = Swift.identifier op.method.name

/-- The native function has the name of the one of the operation. -/
def Kotlin.NamesNative (op : Operation) (text : String) : Prop :=
  Code.nameIn text = "native" ++ op.pascalName

/-- The bridge has the symbol of the native function of the operation. -/
def Kotlin.NamesBridge (ctx : Context) (op : Operation) (d : String × List Line) : Prop :=
  Code.nameIn d.1 = Kotlin.bridgeSymbol ctx ("native" ++ op.pascalName)

instance (ctx : Context) (op : Operation) : DecidablePred (Kotlin.NamesWrapper ctx op) :=
  fun _ => inferInstanceAs (Decidable (_ ∧ _))

instance (ctx : Context) (op : Operation) : DecidablePred (Swift.NamesFunction ctx op) :=
  fun _ => inferInstanceAs (Decidable (_ ∧ _))

instance (op : Operation) : DecidablePred (Kotlin.NamesNative op) :=
  fun _ => inferInstanceAs (Decidable (_ = _))

instance (ctx : Context) (op : Operation) : DecidablePred (Kotlin.NamesBridge ctx op) :=
  fun _ => inferInstanceAs (Decidable (_ = _))

/-- Two operations have wrappers of one name in one place of the Kotlin file. -/
def Kotlin.WrappedAlike (op op' : Operation) : Prop :=
  Kotlin.placeOf op = Kotlin.placeOf op' ∧ condense op.method.name = condense op'.method.name

/-- Two operations have functions of one name in one class of the Swift file. -/
def Swift.ExposedAlike (op op' : Operation) : Prop :=
  Swift.home op = Swift.home op' ∧ condense op.method.name = condense op'.method.name

/-- The native functions of two operations have one name. -/
def Kotlin.BridgedAlike (op op' : Operation) : Prop :=
  condense op.joinedName = condense op'.joinedName

/-- **When a declaration is the only one of its name.** Two functions of one name in one place may
be overloads of each other, and so may two native functions; two bridges of one name are not. -/
structure NamedOnce (ctx : Context) (source bridge library : List Line) : Prop where
  wrapper : ∀ op ∈ ctx.api.written,
    (∃ d, (Kotlin.functionsIn source).filter (Kotlin.NamesWrapper ctx op ·) = [d]) ↔
      ∀ op' ∈ ctx.api.written, Kotlin.WrappedAlike op' op → op' = op
  function : ∀ op ∈ ctx.api.written,
    (∃ d, (Swift.functionsIn library).filter (Swift.NamesFunction ctx op ·) = [d]) ↔
      ∀ op' ∈ ctx.api.written, Swift.ExposedAlike op' op → op' = op
  external : ∀ op ∈ ctx.api.operations,
    (∃ text, (Kotlin.externalsIn source).filter (Kotlin.NamesNative op ·) = [text]) ↔
      ∀ op' ∈ ctx.api.operations, Kotlin.BridgedAlike op' op → op' = op
  bridge : ∀ op ∈ ctx.api.operations,
    (∃ d, (Kotlin.bridgesIn bridge).filter (Kotlin.NamesBridge ctx op ·) = [d]) ↔
      ∀ op' ∈ ctx.api.operations, Kotlin.BridgedAlike op' op → op' = op

/-- A class is no object. -/
theorem Kotlin.class_ne_object (s t : String) : "class " ++ s ≠ "object " ++ t := by
  intro halike
  have hletter := congrArg (fun text : String => text.toList.head?) halike
  simp at hletter

/-- Places are told apart by the lines that open them. -/
theorem Kotlin.placeHead_inj {ctx : Context} {p q : Option String} :
    Kotlin.placeHead ctx p = Kotlin.placeHead ctx q ↔ p = q := by
  refine ⟨fun h => ?_, congrArg _⟩
  -- A class is told from the object by its first word, and two classes by the name behind it.
  cases p with
  | none =>
    cases q with
    | none => rfl
    | some k =>
      rw [placeHead, placeHead, String.append_assoc, String.append_assoc] at h
      exact (class_ne_object _ _ h.symm).elim
  | some k =>
    cases q with
    | none =>
      rw [placeHead, placeHead, String.append_assoc, String.append_assoc] at h
      exact (class_ne_object _ _ h).elim
    | some k' =>
      rw [placeHead, placeHead, String.append_left_inj, String.append_right_inj] at h
      rw [h]

/-- A class is no name space. -/
theorem Swift.class_ne_enum (s t : String) : "public final class " ++ s ≠ "public enum " ++ t := by
  intro halike
  have hletter := congrArg (fun text : String => text.toList[7]?) halike
  simp at hletter

theorem Swift.placeHead_inj {ctx : Context} {p q : Option String} :
    Swift.placeHead ctx p = Swift.placeHead ctx q ↔ p = q := by
  refine ⟨fun h => ?_, congrArg _⟩
  -- As for the other library, with an enum in the place of the object.
  cases p with
  | none =>
    cases q with
    | none => rfl
    | some k =>
      rw [placeHead_none, placeHead_some, String.append_assoc, String.append_assoc] at h
      exact (class_ne_enum _ _ h.symm).elim
  | some k =>
    cases q with
    | none =>
      rw [placeHead_none, placeHead_some, String.append_assoc, String.append_assoc] at h
      exact (class_ne_enum _ _ h).elim
    | some k' =>
      rw [placeHead_some, placeHead_some, String.append_left_inj, String.append_right_inj] at h
      rw [h]

/-! ### Reading names -/

open Code

/-- Words, between backticks or not, hold neither a parenthesis nor a blank. -/
theorem ne_of_mem_quoted {s : String} (h : IsWord s) (reserved : List String) :
    ∀ c ∈ (if reserved.contains s then "`" ++ s ++ "`" else s).toList, c ≠ '(' ∧ c ≠ ' ' := by
  -- A word has no bracket and no blank in it, and the marks around it are neither.
  have hword : ∀ c ∈ s.toList, c ≠ '(' ∧ c ≠ ' ' := by
    intro c hc
    constructor
    · rintro rfl
      exact h.not_mem (by decide) hc
    · rintro rfl
      exact h.not_mem (by decide) hc
  have htick : ∀ c ∈ "`".toList, c ≠ '(' ∧ c ≠ ' ' := List.forall_mem_singleton.mpr (by decide)
  intro c hc
  split at hc
  · rw [String.toList_append, String.toList_append, List.mem_append, List.mem_append] at hc
    rcases hc with (hc | hc) | hc
    · exact htick c hc
    · exact hword c hc
    · exact htick c hc
  · exact hword c hc

theorem isWord_camelCase {s : String} (h : isSnakeIdentifier s = true) :
    IsWord (Naming.camelCase s) :=
  (isPlain_of_isSnakeIdentifier h).isWord.camelCase

variable {ctx : Context}

/-- The name of a Kotlin function is read off its head. -/
theorem Kotlin.WrapsIn.nameIn_eq {op : Operation} {d : String × String × List Line}
    (h : WrapsIn ctx op d) (hname : isSnakeIdentifier op.method.name = true) :
    nameIn d.2.1 = identifier op.method.name := by
  obtain ⟨params, ret, -, -, hhead⟩ := h.head
  rw [hhead, String.append_assoc, String.append_assoc, String.append_assoc]
  exact Code.nameIn_eq _ (by decide) (by decide) (ne_of_mem_quoted (isWord_camelCase hname) _)

/-- The name of a Swift function is read off its head. -/
theorem Swift.ExposesIn.nameIn_eq {op : Operation} {d : String × String × List Line}
    (h : ExposesIn ctx op d) (hname : isSnakeIdentifier op.method.name = true) :
    nameIn d.2.1 = identifier op.method.name := by
  obtain ⟨params, effects, -, hhead⟩ := h.head
  have hword := ne_of_mem_quoted (isWord_camelCase hname) Swift.keywords
  rw [hhead, String.append_assoc, String.append_assoc, String.append_assoc]
  split
  · exact Code.nameIn_eq _ (by decide) (by decide) hword
  · exact Code.nameIn_eq _ (by decide) (by decide) hword

/-- Letters, digits and underscores hold neither a parenthesis nor a blank. -/
theorem ne_of_isWord {s : String} (h : IsWord s) : ∀ c ∈ s.toList, c ≠ '(' ∧ c ≠ ' ' := by
  simpa using ne_of_mem_quoted h []

theorem isWord_pascalName {a : Api} (named : a.SnakeNamed) {op : Operation}
    (hop : op ∈ a.operations) : IsWord ("native" ++ op.pascalName) := by
  have hinterface := isPlain_of_isSnakeIdentifier (isSnakeIdentifier_interface named hop)
  have hname := isPlain_of_isSnakeIdentifier (named.of_mem_operations hop)
  exact IsWord.append (by decide) (hinterface.isWord.pascalCase.append hname.isWord.pascalCase)

/-- Escapes are words. -/
theorem isWord_bridgeSymbol (ctx : Context) (name : String) :
    IsWord (Kotlin.bridgeSymbol ctx name) := by
  intro c hc
  rw [Kotlin.bridgeSymbol, Naming.jniSymbol, String.toList_join, List.mem_flatMap] at hc
  obtain ⟨part, hpart, hc⟩ := hc
  -- The parts are fixed, or they are underscores and escaped segments.
  rcases List.mem_cons.mp hpart with rfl | hpart
  · exact (by decide : IsWord "Java") c hc
  · obtain ⟨segment, -, rfl⟩ := List.mem_map.mp hpart
    rw [String.toList_append, List.mem_append] at hc
    rcases hc with hc | hc
    · exact (by decide : IsWord "_") c hc
    · rcases Naming.isAlphanum_of_mem_jniEscape hc with halpha | rfl
      · exact isNameTail_of_isAlphanum halpha
      · rfl

/-- **Two bridges have one symbol** exactly when the joined names of their operations condense
alike, as letters and digits need no escape. -/
theorem bridgeSymbol_native_eq_iff {op op' : Operation} (named : ctx.api.SnakeNamed)
    (hop : op ∈ ctx.api.operations) (hop' : op' ∈ ctx.api.operations) :
    Kotlin.bridgeSymbol ctx ("native" ++ op.pascalName) =
        Kotlin.bridgeSymbol ctx ("native" ++ op'.pascalName) ↔
      condense op.joinedName = condense op'.joinedName := by
  have hsymbol := bridgeSymbol_bridgeName ctx (isSnakeIdentifier_interface named hop)
    (named.of_mem_operations hop)
  have hsymbol' := bridgeSymbol_bridgeName ctx (isSnakeIdentifier_interface named hop')
    (named.of_mem_operations hop')
  rw [Kotlin.bridgeName] at hsymbol hsymbol'
  rw [hsymbol, hsymbol', ← pascalName_eq_iff named hop hop', Operation.pascalName,
    Operation.pascalName]
  simp only [String.append_assoc, String.append_right_inj]

/-- The name of a native function is read off its declaration. -/
theorem Kotlin.DeclaresIn.nameIn_eq {op : Operation} {text : String} (h : DeclaresIn ctx op text)
    (hname : IsWord ("native" ++ op.pascalName)) : nameIn text = "native" ++ op.pascalName := by
  obtain ⟨params, answer, -, rfl⟩ := h
  have hmark : "external fun native" = "external fun " ++ "native" := rfl
  have htext : "external fun native" ++ op.pascalName ++ "(" ++ Text.commaSep params ++ "): "
      ++ answer = "external fun " ++ ("native" ++ op.pascalName) ++ "("
        ++ (Text.commaSep params ++ "): " ++ answer) := by
    simp only [hmark, String.append_assoc]
  rw [htext]
  exact Code.nameIn_eq _ (by decide) (by decide) (ne_of_isWord hname)

/-- The symbol of a bridge is read off its head. -/
theorem Kotlin.BridgesIn.nameIn_eq {op : Operation} {d : String × List Line}
    (h : BridgesIn ctx op d) :
    nameIn d.1 = bridgeSymbol ctx ("native" ++ op.pascalName) := by
  obtain ⟨params, -, hhead⟩ := h.head
  have htext : d.1 = "" ++ bridgeSymbol ctx ("native" ++ op.pascalName) ++ "("
      ++ (Text.commaSep ("JNIEnv *env" :: "jobject thiz" :: params) ++ ") \x7b") := by
    rw [hhead, String.empty_append, String.append_assoc]
  rw [htext]
  exact Code.nameIn_eq _ (by decide) (by decide) (ne_of_isWord (isWord_bridgeSymbol _ _))

/-! ### Both bindings -/

theorem covered {source : Kotlin.Source} {bridge : Kotlin.BridgeFile} {library : Swift.Source}
    (valid : Conforms ctx.api (some ctx.types)) (hsource : Kotlin.Source.ofContext ctx = .ok source)
    (hbridge : Kotlin.BridgeFile.ofContext ctx = .ok bridge)
    (hlibrary : Swift.Source.ofContext ctx = .ok library) :
    Covered ctx (source.lines ctx) (bridge.lines ctx) (library.lines ctx) where
  distinct := nodup_operations valid
  wrappers := Kotlin.oneForEach_functionsIn valid hsource
  functions := Swift.oneForEach_functionsIn valid hlibrary
  externals := .of_forall₂ (Kotlin.forall₂_externalsIn hsource)
  bridges := .of_forall₂ (Kotlin.forall₂_bridgesIn hbridge)

/-- **When a bridge is alone under its symbol**: no other operation has a native function of the
same name. -/
theorem Kotlin.exists_bridge_iff {bridge : List Line}
    (h : OneForEach (BridgesIn ctx) ctx.api.operations (bridgesIn bridge))
    (hdistinct : ctx.api.operations.Nodup) (named : ctx.api.SnakeNamed) :
    ∀ op ∈ ctx.api.operations, (∃ d, (bridgesIn bridge).filter (NamesBridge ctx op ·) = [d]) ↔
      ∀ op' ∈ ctx.api.operations, BridgedAlike op' op → op' = op := by
  refine exists_filter_iff h hdistinct (fun x hx x' hx' d hd => ?_) fun _ => rfl
  rw [NamesBridge, hd.nameIn_eq]
  exact bridgeSymbol_native_eq_iff named hx' hx

/-- **Which declarations are alone under their names**, where the names of the description are in
snake case. -/
theorem Covered.namedOnce {source bridge library : List Line}
    (h : Covered ctx source bridge library) (named : ctx.api.SnakeNamed) :
    NamedOnce ctx source bridge library := by
  -- Each of the four listings is one of the written operations, and the heads agree exactly when
  -- the places and the spellings do.
  have hwritten : ctx.api.written.Nodup := h.distinct.filter _
  have hsnake : ∀ op ∈ ctx.api.written, isSnakeIdentifier op.method.name = true :=
    fun op hop => named.of_mem_operations (List.mem_filter.mp hop).1
  refine ⟨exists_filter_iff h.wrappers hwritten (fun x hx x' hx' d hd => ?_) fun _ => ⟨rfl, rfl⟩,
    exists_filter_iff h.functions hwritten (fun x hx x' hx' d hd => ?_) fun _ => ⟨rfl, rfl⟩,
    exists_filter_iff h.externals h.distinct (fun x hx x' hx' text htext => ?_) fun _ => rfl,
    Kotlin.exists_bridge_iff h.bridges h.distinct named⟩
  · rw [Kotlin.NamesWrapper, hd.place, hd.nameIn_eq (hsnake x' hx'), Kotlin.placeHead_inj]
    exact and_congr_right fun _ => quoted_eq_quoted_iff (hsnake x' hx') (hsnake x hx)
  · rw [Swift.NamesFunction, hd.place, hd.nameIn_eq (hsnake x' hx'), Swift.placeHead_inj]
    exact and_congr_right fun _ => quoted_eq_quoted_iff (hsnake x' hx') (hsnake x hx)
  · rw [Kotlin.NamesNative, htext.nameIn_eq (isWord_pascalName named hx'), String.append_right_inj]
    exact pascalName_eq_iff named hx' hx

/-- **No operation is lost and none is doubled.** A valid description names each operation once,
and the files of both bindings declare one thing for each: constructors and methods have one
public function in the Kotlin file and one in the Swift file, on the class of their handle or else
on the object or the name space, where the Swift function calls the function of its operation and
no other; all operations, destructors included, have one native function in the Kotlin file and
one bridge in the C file. If the names are in snake case, as the shape of a description asks for,
then each of these is the only one of its name exactly when no two operations have names that
the bindings write alike. -/
theorem operations_covered (valid : ctx.api.validate (some ctx.types) = [])
    {kotlin swift : List Artifact} (hkotlin : Kotlin.emit ctx = .ok kotlin)
    (hswift : Swift.emit ctx = .ok swift) :
    ∃ source bridge library : List Line,
      kotlin = [ctx.generatedFile (ctx.pascalApi ++ ".kt") Code.fourBlanks source,
        ctx.generatedFile (ctx.apiName ++ "_jni.c") Code.fourBlanks bridge] ∧
      swift = [ctx.generatedFile (ctx.pascalApi ++ ".swift") Code.fourBlanks library] ∧
      Covered ctx source bridge library ∧
      ∀ doc, Api.ofDocument doc = .ok ctx.api → NamedOnce ctx source bridge library := by
  obtain ⟨source, hsource, hkotlin⟩ := bind_eq_ok_iff.mp hkotlin
  obtain ⟨bridge, hbridge, hkotlin⟩ := bind_eq_ok_iff.mp hkotlin
  obtain ⟨library, hlibrary, hswift⟩ := bind_eq_ok_iff.mp hswift
  obtain rfl := pure_eq_ok_iff.mp hkotlin
  obtain rfl := pure_eq_ok_iff.mp hswift
  have hcovered := covered (Validate.conforms_of_validate valid) hsource hbridge hlibrary
  exact ⟨_, _, _, rfl, rfl, hcovered, fun _ described =>
    hcovered.namedOnce (snakeNamed_of_ofDocument described)⟩

/-- A description with two handles, whose methods stand in each other's interfaces. -/
def studioContext : Context where
  api :=
    { metadata := { name := "studio", version := "1.0.0", language := .rust }
      schemas := ["studio.fbs"]
      handles := [{ name := "Board" }, { name := "Pen" }]
      interfaces := [
        { name := "board"
          constructors := [
            { name := "create", returns := some { type := "handle:Board" },
              error := some "Outcome" },
            { name := "create_from", parameters := [⟨"path", "string", none, none⟩],
              returns := some { type := "handle:Board" }, error := some "Outcome" }]
          methods := [
            { name := "count", returns := some { type := "uint32" } },
            { name := "drop_pen", parameters := [⟨"pen", "handle:Pen", none, none⟩] }] },
        { name := "pen"
          constructors := [
            { name := "create", returns := some { type := "handle:Pen" },
              error := some "Outcome" }]
          methods := [
            { name := "wipe", parameters := [⟨"board", "handle:Board", none, none⟩],
              error := some "Outcome" }] }] }
  types := Keyed.empty.insert "Outcome" { kind := .enum, values := [⟨"Ok", 0⟩, ⟨"Failed", 1⟩] }

theorem operations_covered_studio :
    studioContext.api.validate (some studioContext.types) = [] ∧
      ∃ kotlin swift, Kotlin.emit studioContext = .ok kotlin ∧
        Swift.emit studioContext = .ok swift ∧
        ∃ source bridge library : List Line,
          kotlin = [studioContext.generatedFile (studioContext.pascalApi ++ ".kt") Code.fourBlanks
              source,
            studioContext.generatedFile (studioContext.apiName ++ "_jni.c") Code.fourBlanks bridge] ∧
          swift = [studioContext.generatedFile (studioContext.pascalApi ++ ".swift")
            Code.fourBlanks library] ∧
          Covered studioContext source bridge library ∧
          ∀ doc, Api.ofDocument doc = .ok studioContext.api →
            NamedOnce studioContext source bridge library := by
  have hvalid : studioContext.api.validate (some studioContext.types) = [] := by decide
  -- no record crosses
  have hnames : Kotlin.Source.recordNames studioContext = [] := by cbv
  obtain ⟨kotlin, hkotlin⟩ : ∃ kotlin, Kotlin.emit studioContext = .ok kotlin :=
    (Kotlin.succeeds_emit_iff (Validate.conforms_of_validate hvalid)).mpr
      (Kotlin.canExpress_of_recordNames hnames (List.forall_mem_nil _))
  obtain ⟨swift, hswift⟩ : ∃ swift, Swift.emit studioContext = .ok swift :=
    exists_ok_of_isOk (by decide)
  exact ⟨hvalid, kotlin, swift, hkotlin, hswift, operations_covered hvalid hkotlin hswift⟩

/-- **A valid description whose files declare functions twice**: two methods share the name of
their wrappers in both bindings, and a method and the destructor share the native function and the
symbol of its bridge. -/
theorem doubled_bridges_deck :
    Api.ofDocument tapeContext.api.toJson = .ok tapeContext.api ∧
      tapeContext.api.validate (some tapeContext.types) = [] ∧
      ∃ source bridge library : List Line,
        Kotlin.emit tapeContext = .ok [
          tapeContext.generatedFile (tapeContext.pascalApi ++ ".kt") Code.fourBlanks source,
          tapeContext.generatedFile (tapeContext.apiName ++ "_jni.c") Code.fourBlanks bridge] ∧
        Swift.emit tapeContext = .ok [
          tapeContext.generatedFile (tapeContext.pascalApi ++ ".swift") Code.fourBlanks library] ∧
        (¬ ∃ d, (Kotlin.functionsIn source).filter
          (Kotlin.NamesWrapper tapeContext ⟨deckInterface, .method, { name := "cue1" }⟩ ·) = [d]) ∧
        (¬ ∃ d, (Swift.functionsIn library).filter
          (Swift.NamesFunction tapeContext ⟨deckInterface, .method, { name := "cue1" }⟩ ·) = [d]) ∧
        (¬ ∃ text, (Kotlin.externalsIn source).filter (Kotlin.NamesNative
          ⟨deckInterface, .destructor, Interface.destructorOf "Deck"⟩ ·) = [text]) ∧
        ¬ ∃ d, (Kotlin.bridgesIn bridge).filter (Kotlin.NamesBridge tapeContext
          ⟨deckInterface, .destructor, Interface.destructorOf "Deck"⟩ ·) = [d] := by
  have hconforms := Validate.conforms_of_validate validate_tape
  -- No records are involved, so the files exist as soon as the description conforms.
  have hnames : Kotlin.Source.recordNames tapeContext = [] := by cbv
  obtain ⟨source, bridge, hsource, hbridge⟩ :=
    Kotlin.exists_files hconforms hnames (List.forall_mem_nil _)
  obtain ⟨library, hlibrary⟩ : ∃ library, Swift.Source.ofContext tapeContext = .ok library :=
    exists_ok_of_isOk (by decide)
  have hkotlin : Kotlin.emit tapeContext = .ok [
      tapeContext.generatedFile (tapeContext.pascalApi ++ ".kt") Code.fourBlanks
        (source.lines tapeContext),
      tapeContext.generatedFile (tapeContext.apiName ++ "_jni.c") Code.fourBlanks
        (bridge.lines tapeContext)] := by
    rw [Kotlin.emit, hsource, hbridge]
    rfl
  have hswift : Swift.emit tapeContext = .ok [
      tapeContext.generatedFile (tapeContext.pascalApi ++ ".swift") Code.fourBlanks
        (library.lines tapeContext)] := by
    rw [Swift.emit, hlibrary]
    rfl
  have hnamed := (covered hconforms hsource hbridge hlibrary).namedOnce
    (snakeNamed_of_ofDocument described_tape)
  refine ⟨described_tape, validate_tape, _, _, _, hkotlin, hswift, fun hone => ?_, fun hone => ?_,
    fun hone => ?_, fun hone => ?_⟩
  -- The other operation has the same spelling and is not the same one.
  · have halone := (hnamed.wrapper _ (by decide)).mp hone
    exact absurd (halone ⟨deckInterface, .method, { name := "cue_1" }⟩ (by decide)
      ⟨by decide, by decide⟩) (by decide)
  · have halone := (hnamed.function _ (by decide)).mp hone
    exact absurd (halone ⟨deckInterface, .method, { name := "cue_1" }⟩ (by decide)
      ⟨by decide, by decide⟩) (by decide)
  · have halone := (hnamed.external _ (by decide)).mp hone
    exact absurd (halone ⟨deckInterface, .method, { name := "destroy__deck" }⟩ (by decide)
      (by decide : condense _ = condense _)) (by decide)
  · have halone := (hnamed.bridge _ (by decide)).mp hone
    exact absurd (halone ⟨deckInterface, .method, { name := "destroy__deck" }⟩ (by decide)
      (by decide : condense _ = condense _)) (by decide)

end Bindery
