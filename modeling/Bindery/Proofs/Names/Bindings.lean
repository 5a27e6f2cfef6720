import Bindery.Emit.JavaScript
import Bindery.Emit.Kotlin
import Bindery.Emit.Swift
import Bindery.Proofs.Coverage
import Bindery.Proofs.Names.Operations
import Bindery.Proofs.Names.Spelling
import Bindery.Proofs.Wasm.Convention

/-!
# The names of operations in the bindings

Validation keeps the names of the operations of an interface apart as the description writes
them. The bindings write them in another case: an object of JavaScript and the functions of
Kotlin and Swift in camel case, the native functions of Kotlin and their symbols in Pascal
case. What that loses is the same everywhere, and it is more than validation looks at:

* `nodup_map_iff_spelledApart` — names that are spelled alike exactly when they condense to one
  text are distinct when no two operations condense alike (`SpelledApart`);
* `spells_of_mem_bindingNames` — all names that the bindings make of an operation are such;
* `bindingNames_distinct_iff` — hence they are distinct, in all bindings at once, exactly when
  the operations of the interface are spelled apart;
* `merged_names_deck` — a valid description in which they are not, neither two methods nor a
  method and the destructor.
-/

namespace Bindery

open Validate (Conforms)
open Naming (camelCase pascalCase condense jniEscape jniEscapeChar jniSymbol)

variable {s t : String}

/-! ### Names that are written as they are or escaped -/

/-- What stands between backticks is in no case. -/
theorem camelCase_ne_quoted (h : isSnakeIdentifier s = true) : camelCase s ≠ "`" ++ t := by
  obtain ⟨c, cs, -, hlower, hcamel⟩ := Naming.exists_toList_camelCase h
  intro heq
  have hhead := congrArg (fun text => text.toList.head?) heq
  rw [hcamel, String.toList_append] at hhead
  obtain rfl := Option.some.inj hhead
  exact absurd hlower (by decide)

/-- Reserved words or not, putting some names between backticks keeps them apart. -/
theorem quoted_eq_quoted_iff (hs : isSnakeIdentifier s = true) (ht : isSnakeIdentifier t = true)
    {reserved : List String} :
    (if reserved.contains (camelCase s) then "`" ++ camelCase s ++ "`" else camelCase s) =
        (if reserved.contains (camelCase t) then "`" ++ camelCase t ++ "`" else camelCase t) ↔
      condense s = condense t := by
  rw [← Naming.camelCase_eq_iff hs ht]
  constructor
  · intro halike
    -- Marks are no part of a name, so quoted and plain names differ.
    split_ifs at halike
    · exact (String.append_right_inj "`").mp ((String.append_left_inj "`").mp halike)
    · rw [String.append_assoc] at halike
      exact absurd halike.symm (camelCase_ne_quoted ht)
    · rw [String.append_assoc] at halike
      exact absurd halike (camelCase_ne_quoted hs)
    · exact halike
  · intro halike
    rw [halike]

/-! ### Symbols of native functions -/

/-- Pascal case has letters and digits only. -/
theorem isAlphanum_of_mem_pascalCase (h : isSnakeIdentifier s = true) {c : Char}
    (hc : c ∈ (pascalCase s).toList) : c.isAlphanum = true := by
  have htail := (isPlain_pascalCase h).all c hc
  rw [Schema.isNameTail, Bool.or_eq_true, decide_eq_true_eq] at htail
  refine htail.resolve_right ?_
  rintro rfl
  rw [Naming.toList_pascalCase] at hc
  exact Naming.underscore_notMem_pascalFrom true _ hc

theorem jniEscape_append (s t : String) : jniEscape (s ++ t) = jniEscape s ++ jniEscape t := by
  apply String.toList_injective
  simp only [jniEscape, Text.substitute, String.toList_ofList, String.toList_append,
    List.flatMap_append]

/-- Letters and digits need no escape. -/
theorem jniEscape_eq_self (h : ∀ c ∈ s.toList, c.isAlphanum = true) : jniEscape s = s := by
  -- None of the characters has an escape of its own.
  have hplain : ∀ c ∈ s.toList, (jniEscapeChar c).toList = [c] := by
    intro c hc
    have halpha := h c hc
    unfold jniEscapeChar
    rw [if_neg, if_neg, if_neg, if_pos halpha, Char.toString, String.toList_singleton]
    all_goals
      rintro rfl
      exact absurd halpha (by decide)
  rw [jniEscape, Text.substitute, List.flatMap_congr hplain, List.flatMap_singleton',
    String.ofList_toList]

/-- The name of the function ends its symbol. -/
theorem jniSymbol_eq_append (package cls name : String) :
    jniSymbol package cls name = jniSymbol package cls "" ++ jniEscape name := by
  apply String.toList_injective
  simp [jniSymbol, jniEscape, Text.substitute, String.toList_join]

/-- **The symbol of the native function of an operation** ends with its name in Pascal case. -/
theorem bridgeSymbol_bridgeName (ctx : Context) {op : Operation}
    (hinterface : isSnakeIdentifier op.interface.name = true)
    (hname : isSnakeIdentifier op.method.name = true) :
    Kotlin.bridgeSymbol ctx (Kotlin.bridgeName op) =
      Kotlin.bridgeSymbol ctx "" ++ ("native" ++ pascalCase op.interface.name) ++
        pascalCase op.method.name := by
  have hnative : jniEscape "native" = "native" := by decide
  rw [Kotlin.bridgeSymbol, jniSymbol_eq_append, Kotlin.bridgeName, Operation.pascalName,
    jniEscape_append, jniEscape_append, hnative,
    jniEscape_eq_self fun c hc => isAlphanum_of_mem_pascalCase hinterface hc,
    jniEscape_eq_self fun c hc => isAlphanum_of_mem_pascalCase hname hc, Kotlin.bridgeSymbol]
  simp only [String.append_assoc]

/-! ### The names of one interface -/

/-- **The operations are spelled apart**: no two of them have names that differ in idle
underscores only. -/
def SpelledApart (ops : List Operation) : Prop :=
  ∀ op ∈ ops, ∀ op' ∈ ops, condense op.method.name = condense op'.method.name → op = op'

/-- **Among these operations the name tells as much as the condensed name of the method.** -/
def Spells (ops : List Operation) (name : Operation → String) : Prop :=
  ∀ op ∈ ops, ∀ op' ∈ ops,
    (name op = name op' ↔ condense op.method.name = condense op'.method.name)

theorem Spells.mono {ops ops' : List Operation} {name : Operation → String} (h : Spells ops name)
    (hsub : ops' ⊆ ops) : Spells ops' name :=
  fun op hop op' hop' => h op (hsub hop) op' (hsub hop')

/-- **Names that spell the operations are distinct exactly when the operations are spelled
apart.** -/
theorem nodup_map_iff_spelledApart {ops : List Operation} {name : Operation → String}
    (hops : ops.Nodup) (h : Spells ops name) : (ops.map name).Nodup ↔ SpelledApart ops := by
  rw [List.nodup_map_iff_inj_on hops]
  constructor
  · intro hinj op hop op' hop' halike
    exact hinj op hop op' hop' ((h op hop op' hop').mpr halike)
  · intro hapart op hop op' hop' hname
    exact hapart op hop op' hop' ((h op hop op' hop').mp hname)

/-- **Names without idle underscores stay apart**, as they are distinct themselves. -/
theorem spelledApart_of_condense_eq {a : Api} {types : Option Schema} (h : Conforms a types)
    {i : Interface} (hi : i ∈ a.interfaces)
    (hidle : ∀ op ∈ i.operations, condense op.method.name = op.method.name) :
    SpelledApart i.operations := by
  intro op hop op' hop' halike
  rw [hidle op hop, hidle op' hop'] at halike
  refine List.inj_on_of_nodup_map (nodup_keys h) (mem_operations_of_mem hi hop)
    (mem_operations_of_mem hi hop') ?_
  rw [Operation.key, Operation.key, interface_of_mem_operations hop,
    interface_of_mem_operations hop', halike]

/-- The names that the bindings make of an operation: in camel case for the wrappers of
JavaScript, Kotlin and Swift, in Pascal case for the native functions and their symbols. -/
def bindingNames (ctx : Context) : List (Operation → String) :=
  [fun op => camelCase op.method.name, fun op => Kotlin.identifier op.method.name,
    fun op => Swift.identifier op.method.name, Operation.pascalName, Kotlin.bridgeName,
    fun op => Kotlin.bridgeSymbol ctx (Kotlin.bridgeName op)]

/-- **Every name that the bindings make of the operations of an interface spells them.** -/
theorem spells_of_mem_bindingNames (ctx : Context) {i : Interface} (h : i.SnakeNamed) :
    ∀ name ∈ bindingNames ctx, Spells i.operations name := by
  intro name hmem op hop op' hop'
  have hname := isSnakeIdentifier_of_mem_operations h hop
  have hname' := isSnakeIdentifier_of_mem_operations h hop'
  have hi := interface_of_mem_operations hop
  have hi' := interface_of_mem_operations hop'
  simp only [bindingNames, List.mem_cons, List.not_mem_nil, or_false] at hmem
  rcases hmem with rfl | rfl | rfl | rfl | rfl | rfl
  · exact Naming.camelCase_eq_iff hname hname'
  · exact quoted_eq_quoted_iff hname hname'
  · exact quoted_eq_quoted_iff hname hname'
  -- what stands in front is the same for all operations of the interface
  · rw [Operation.pascalName, Operation.pascalName, hi, hi', String.append_right_inj]
    exact Naming.pascalCase_eq_iff hname hname'
  · rw [Kotlin.bridgeName, Kotlin.bridgeName, Operation.pascalName, Operation.pascalName, hi, hi',
      String.append_right_inj, String.append_right_inj]
    exact Naming.pascalCase_eq_iff hname hname'
  · dsimp only
    rw [bridgeSymbol_bridgeName ctx (hi ▸ h.name) hname,
      bridgeSymbol_bridgeName ctx (hi' ▸ h.name) hname', hi, hi', String.append_right_inj]
    exact Naming.pascalCase_eq_iff hname hname'

/-- **When the names of one interface are distinct in the bindings.** The operations of an
interface of a valid description are distinct, and all names that the bindings make of them
are so exactly when no two names differ in idle underscores only. An object of JavaScript has
one key for each operation but the destructor, so it takes less to keep its keys apart. -/
theorem bindingNames_distinct_iff {doc : Json} {ctx : Context}
    (described : Api.ofDocument doc = .ok ctx.api)
    (valid : ctx.api.validate (some ctx.types) = []) {i : Interface}
    (hi : i ∈ ctx.api.interfaces) :
    i.operations.Nodup ∧
      (∀ name ∈ bindingNames ctx, (i.operations.map name).Nodup ↔ SpelledApart i.operations) ∧
      ∀ wrappers, JavaScript.wrappers ctx i = .ok wrappers →
        let written := i.operations.filter fun op => op.kind ≠ .destructor
        wrappers.map (·.name) = written.map (fun op => camelCase op.method.name) ∧
          ((wrappers.map (·.name)).Nodup ↔ SpelledApart written) := by
  have hconforms := Validate.conforms_of_validate valid
  have hsnake := (snakeNamed_of_ofDocument described).interfaces i hi
  have hops : i.operations.Nodup := nodup_operations_of_mem hconforms hi
  have hspells := spells_of_mem_bindingNames ctx hsnake
  refine ⟨hops, fun name hname => nodup_map_iff_spelledApart hops (hspells name hname), ?_⟩
  intro wrappers hwrappers written
  -- A destructor has no wrapper; the wrappers are those of the other operations, in order.
  have hnames : wrappers.map (·.name) = written.map fun op => camelCase op.method.name :=
    map_eq_map_of_forall₂ (mapM_eq_ok_iff.mp hwrappers) fun op w hw => by
      obtain ⟨_, _, hsteps⟩ := Wasm.exists_steps_of_wrapper hw
      exact hsteps.name
  have hcamel : Spells written fun op => camelCase op.method.name :=
    (hspells _ List.mem_cons_self).mono (List.filter_subset_self _)
  refine ⟨hnames, ?_⟩
  rw [hnames]
  exact nodup_map_iff_spelledApart (hops.filter _) hcamel

/-- An interface whose names have no idle underscores. -/
def tapeInterface : Interface where
  name := "tape"
  constructors := [
    { name := "create", returns := some { type := "handle:Tape" }, error := some "Outcome" }]
  methods := [{ name := "fade_in" }, { name := "fade_out" }, { name := "import" }]

/-- An interface with two methods that are spelled alike, and with one that is spelled like
the destructor. -/
def deckInterface : Interface where
  name := "deck"
  constructors := [
    { name := "create", returns := some { type := "handle:Deck" }, error := some "Outcome" }]
  methods := [{ name := "cue_1" }, { name := "cue1" }, { name := "destroy__deck" }]

def tapeContext : Context where
  api :=
    { metadata := { name := "demo", version := "1.0.0", language := .rust }
      schemas := ["demo.fbs"]
      handles := [{ name := "Tape" }, { name := "Deck" }]
      interfaces := [tapeInterface, deckInterface] }
  types := Keyed.empty.insert "Outcome" { kind := .enum, values := [⟨"Ok", 0⟩, ⟨"Failed", 1⟩] }

theorem described_tape : Api.ofDocument tapeContext.api.toJson = .ok tapeContext.api :=
  ofDocument_eq_ok_iff.mpr (by decide +kernel)

theorem validate_tape : tapeContext.api.validate (some tapeContext.types) = [] := by
  decide +kernel

theorem bindingNames_distinct_tape :
    Api.ofDocument tapeContext.api.toJson = .ok tapeContext.api ∧
      tapeContext.api.validate (some tapeContext.types) = [] ∧
      tapeInterface ∈ tapeContext.api.interfaces ∧
      (∀ name ∈ bindingNames tapeContext, (tapeInterface.operations.map name).Nodup) ∧
      ∃ wrappers, JavaScript.wrappers tapeContext tapeInterface = .ok wrappers ∧
        wrappers.map (·.name) = ["create", "fadeIn", "fadeOut", "import"] := by
  have hmem : tapeInterface ∈ tapeContext.api.interfaces := List.mem_cons_self
  obtain ⟨-, hnames, hwrappers⟩ := bindingNames_distinct_iff described_tape validate_tape hmem
  have hapart : SpelledApart tapeInterface.operations :=
    spelledApart_of_condense_eq (Validate.conforms_of_validate validate_tape) hmem (by decide)
  refine ⟨described_tape, validate_tape, hmem, fun name hname => (hnames name hname).mpr hapart, ?_⟩
  -- That the wrappers exist is computed; their names come from the theorem.
  have hsome : (JavaScript.wrappers tapeContext tapeInterface).toBool = true := by decide +kernel
  cases h : JavaScript.wrappers tapeContext tapeInterface with
  | error e =>
    rw [h] at hsome
    cases hsome
  | ok wrappers =>
    refine ⟨wrappers, rfl, ?_⟩
    rw [(hwrappers wrappers h).1]
    decide

/-- **A valid description whose bindings merge operations** of one interface, two methods as
well as a method and the destructor. -/
theorem merged_names_deck :
    Api.ofDocument tapeContext.api.toJson = .ok tapeContext.api ∧
      tapeContext.api.validate (some tapeContext.types) = [] ∧
      deckInterface ∈ tapeContext.api.interfaces ∧ deckInterface.operations.Nodup ∧
      deckInterface.operations.map (fun op => camelCase op.method.name) =
        ["create", "destroyDeck", "cue1", "cue1", "destroyDeck"] ∧
      deckInterface.operations.map Operation.pascalName =
        ["DeckCreate", "DeckDestroyDeck", "DeckCue1", "DeckCue1", "DeckDestroyDeck"] ∧
      (JavaScript.wrappers tapeContext deckInterface).map (·.map (·.name)) =
        .ok ["create", "cue1", "cue1", "destroyDeck"] ∧
      ¬ ∀ name ∈ bindingNames tapeContext, (deckInterface.operations.map name).Nodup := by
  refine ⟨described_tape, validate_tape, by decide, by decide, by decide, by decide,
    by decide +kernel, fun hdistinct => ?_⟩
  exact absurd (hdistinct _ List.mem_cons_self) (by decide)

end Bindery
