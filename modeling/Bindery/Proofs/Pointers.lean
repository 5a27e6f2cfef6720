import Bindery.Load
import Bindery.Proofs.Patterns
import Bindery.Proofs.Yaml.Documents

/-!
# Where a violation points

A document that has not the shape of a description is refused with a pointer to the place that is
wrong. What a pointer means does not depend on how it came about: it is cut at its slashes, the
escapes in each piece are undone, and the steps are followed from the root (`Json.resolve?`). A
step into an object is a key, whatever characters it has, and a step into a list is a number.

Following the same steps through the shape leads to what is asked for at that place
(`Shape.descend?`), and `Shape.Breaks` says what it is for a value to break a rule of a shape,
without any order of checking. So a violation is where it says that it is if its pointer leads to
a value that breaks the rule, or to the value of a key that is not allowed there
(`Shape.Offends`).

* `check_eq_error` — one step of the check: a violation is at the value itself, or at an unknown
  key, or one step further in;
* `offends_of_check` — hence, by induction on the steps, every violation is where it says;
* `steps?_pointer` — the steps of a violation are read back from its pointer;
* `violation_points_at_offender` — a refused document is refused for the value that the pointer
  leads to.

All this is about documents as they are, with each key of an object once (`Json.Proper`), and every
text that is read as a document gives such a one (`proper_of_load`). So what is said of documents
holds of every text that is refused for its shape (`Api.exists_offender_of_ofYaml`).
-/

namespace Bindery

/-! ### Pointers -/

namespace Json

/-- The number of an item: decimal digits, without a zero in front of others. -/
def itemNumber? (step : String) : Option Nat := step.toNat?.filter fun n => n.repr = step

/-- **The value one step further in**: under a key of an object, or an item of a list. -/
def child? (step : String) : Json → Option Json
  | obj entries => lookupEntry step entries
  | arr items => itemNumber? step >>= fun n => items[n]?
  | _ => none

/-- The value that some steps lead to. -/
def descend? : List String → Json → Option Json
  | [], v => some v
  | step :: rest, v => v.child? step >>= descend? rest

end Json

namespace Pointer

/-- One character in the place of two, wherever these follow each other. -/
def unpair (first second single : Char) : List Char → List Char
  | a :: b :: rest =>
    if a = first ∧ b = second then single :: unpair first second single rest
    else a :: unpair first second single (b :: rest)
  | cs => cs

/-- A step without its escapes: first a tilde and a one are a slash, and then a tilde and a zero
are a tilde. -/
def unescape (step : String) : String :=
  String.ofList (unpair '~' '0' '~' (unpair '~' '1' '/' step.toList))

/-- **The steps of a pointer**: the texts behind its slashes, without their escapes. -/
def steps? (pointer : String) : Option (List String) :=
  match Text.cut '/' pointer with
  | "" :: steps => some (steps.map unescape)
  | _ => none

end Pointer

/-- **The value that a pointer leads to**, if it leads to one. -/
def Json.resolve? (pointer : String) (doc : Json) : Option Json :=
  Pointer.steps? pointer >>= fun steps => doc.descend? steps

/-! ### Shapes at a place -/

namespace Shape

open Json

/-- What is asked for one step further in. -/
def child? (step : String) : Shape → Option Shape
  | object properties _ => lookupEntry step properties
  | list item _ _ => some item
  | text _ | word _ => none

/-- What is asked for where some steps lead. -/
def descend? : List String → Shape → Option Shape
  | [], shape => some shape
  | step :: rest, shape => shape.child? step >>= descend? rest

/-- **A value breaks a rule of a shape.** The reason names the rule, and the value itself where the
message shows it. -/
inductive Breaks : Shape → Json → Reason → Prop
  | notText {pattern : Option TextPattern} {v : Json} (other : ∀ s, v ≠ str s) :
    Breaks (text pattern) v (.wrongType v "string")
  | noMatch {p : TextPattern} {s : String} (refused : p.accepts s = false) :
    Breaks (text (some p)) (str s) (.noMatch (str s) p.display)
  | notAWord {words : List String} {v : Json} (other : ∀ w ∈ words, v ≠ str w) :
    Breaks (word words) v (.notAWord v words)
  | notList {item : Shape} {nonempty distinct : Bool} {v : Json} (other : ∀ items, v ≠ arr items) :
    Breaks (list item nonempty distinct) v (.wrongType v "array")
  | tooShort {item : Shape} {distinct : Bool} :
    Breaks (list item true distinct) (arr []) (.tooShort (arr []))
  | repetition {item : Shape} {nonempty : Bool} {items : List Json}
    (repeated : ¬ (items.map compact).Nodup) :
    Breaks (list item nonempty true) (arr items) (.repetition (arr items))
  | notObject {properties : List (String × Shape)} {required : List String} {v : Json}
    (other : ∀ entries, v ≠ obj entries) :
    Breaks (object properties required) v (.wrongType v "object")
  | missing {properties : List (String × Shape)} {required : List String}
    {entries : List (String × Json)} {key : String} (asked : key ∈ required)
    (absent : lookupEntry key entries = none) :
    Breaks (object properties required) (obj entries) (.missingProperty key)

/-- A key that an object has and must not have. -/
def Unknown (shape : Shape) (value : Json) (key : String) (node : Json) : Prop :=
  ∃ properties required entries, shape = object properties required ∧ value = obj entries ∧
    lookupEntry key entries = some node ∧ lookupEntry key properties = none

/-- **The value at a place is what a reason complains about.** -/
def Offends (shape : Shape) (doc : Json) (steps : List String) (node : Json) (reason : Reason) :
    Prop :=
  match reason with
  | .unknownProperty key => ∃ front asked holder, steps = front ++ [key] ∧
      shape.descend? front = some asked ∧ doc.descend? front = some holder ∧
      asked.Unknown holder key node
  | reason => ∃ asked, shape.descend? steps = some asked ∧ asked.Breaks node reason

/-! ### One step of the check -/

/-- A violation in a list is a violation of one of its items. -/
theorem exists_of_checkItems {item : Shape} {start : Nat} {items : List Json} {v : Violation}
    (h : checkItems item start items = .error v) :
    ∃ (i : Nat) (x : Json) (w : Violation), items[i]? = some x ∧ item.check x = .error w ∧
      v = w.below (start + i).repr := by
  induction items generalizing start with
  | nil =>
    rw [checkItems] at h
    cases h
  | cons x rest ih =>
    rw [checkItems, bind_eq_error_iff] at h
    -- Either the first item breaks the shape, or one of the others does, one index further.
    rcases h with hfirst | ⟨_, -, hrest⟩
    · obtain ⟨w, hw, rfl⟩ := mapError_eq_error_iff.mp hfirst
      exact ⟨0, x, w, rfl, hw, rfl⟩
    · obtain ⟨i, y, w, hy, hw, rfl⟩ := ih hrest
      refine ⟨i + 1, y, w, hy, hw, ?_⟩
      rw [Nat.add_right_comm, Nat.add_assoc]

/-- A violation in an object is one at one of its entries. -/
theorem exists_of_checkEntries {properties : List (String × Shape)}
    {entries : List (String × Json)} {v : Violation}
    (h : checkEntries properties entries = .error v) :
    ∃ e ∈ entries, checkProperty properties e.1 e.2 = .error v := by
  induction entries with
  | nil =>
    rw [checkEntries] at h
    cases h
  | cons e rest ih =>
    rw [checkEntries, bind_eq_error_iff] at h
    rcases h with hfirst | ⟨_, -, hrest⟩
    · exact ⟨e, List.mem_cons_self, hfirst⟩
    · obtain ⟨e', he', hviolation⟩ := ih hrest
      exact ⟨e', List.mem_cons_of_mem e he', hviolation⟩

/-- A violation at an entry is that its key is unknown, or one of its value. -/
theorem checkProperty_eq_error {properties : List (String × Shape)} {key : String} {value : Json}
    {v : Violation} (h : checkProperty properties key value = .error v) :
    (lookupEntry key properties = none ∧ v = ⟨[key], .unknownProperty key⟩) ∨
      ∃ shape w, lookupEntry key properties = some shape ∧ shape.check value = .error w ∧
        v = w.below key := by
  induction properties with
  | nil =>
    rw [checkProperty] at h
    exact .inl ⟨rfl, (Except.error.inj h).symm⟩
  | cons property rest ih =>
    obtain ⟨k, shape⟩ := property
    rw [checkProperty] at h
    rw [lookupEntry_cons]
    -- The first shape with the key decides, like the lookup does.
    by_cases hk : k = key
    · rw [if_pos hk] at h
      obtain ⟨w, hw, rfl⟩ := mapError_eq_error_iff.mp h
      exact .inr ⟨shape, w, if_pos hk, hw, rfl⟩
    · rw [if_neg hk] at h
      rw [if_neg hk]
      exact ih h

/-- Texts that are all different are not repeated. -/
theorem repeatsText_eq_false {items : List Json} (h : (items.map compact).Nodup) :
    repeatsText items = false := by
  have hperm : (Text.distinct (items.map compact)).Perm (items.map compact) := by
    rw [List.perm_ext_iff_of_nodup (Text.nodup_distinct _) h]
    intro text
    exact Text.mem_distinct_iff
  simpa [repeatsText] using hperm.length_eq

theorem here_eq_error_iff {r : Reason} {v : Violation} : here r = .error v ↔ ⟨[], r⟩ = v :=
  ⟨Except.error.inj, congrArg Except.error⟩

/-- What a list has to be as a whole. -/
theorem breaks_of_whole_list {item : Shape} {nonempty distinct : Bool} {items : List Json}
    {v : Violation}
    (h : (if nonempty && items.isEmpty then here (.tooShort (arr items))
      else if distinct && repeatsText items then here (.repetition (arr items))
      else .ok ()) = .error v) :
    v.path = [] ∧ (list item nonempty distinct).Breaks (arr items) v.reason := by
  split at h
  next hshort =>
    obtain ⟨rfl, hempty⟩ := Bool.and_eq_true_iff.mp hshort
    obtain rfl := List.isEmpty_iff.mp hempty
    obtain rfl := here_eq_error_iff.mp h
    exact ⟨rfl, .tooShort⟩
  next =>
    split at h
    next hrepeats =>
      obtain ⟨rfl, hitems⟩ := Bool.and_eq_true_iff.mp hrepeats
      obtain rfl := here_eq_error_iff.mp h
      refine ⟨rfl, .repetition ?_⟩
      intro hnodup
      rw [repeatsText_eq_false hnodup] at hitems
      cases hitems
    next => cases h

/-- The keys that an object has to have. -/
theorem breaks_of_checkRequired {properties : List (String × Shape)} {required : List String}
    {entries : List (String × Json)} {v : Violation}
    (h : checkRequired entries required = .error v) :
    v.path = [] ∧ (object properties required).Breaks (obj entries) v.reason := by
  rw [checkRequired] at h
  split at h
  next key hkey =>
    obtain rfl := here_eq_error_iff.mp h
    have habsent : lookupEntry key entries = none := by simpa using List.find?_some hkey
    exact ⟨rfl, .missing (List.mem_of_find?_eq_some hkey) habsent⟩
  next => cases h

/-- The text of a number is read as that number. -/
theorem itemNumber?_repr (n : Nat) : itemNumber? n.repr = some n := by
  rw [itemNumber?, Nat.toNat?_repr, Option.filter_some, if_pos (decide_eq_true rfl)]

/-- **One step of the check.** A violation is at the value itself, and then the value breaks a rule
of the shape; or it is at a key that must not be there; or it is one step further in. -/
theorem check_eq_error {shape : Shape} {value : Json} (hproper : value.Proper) {v : Violation}
    (h : shape.check value = .error v) :
    (v.path = [] ∧ shape.Breaks value v.reason) ∨
      (∃ key node, v = ⟨[key], .unknownProperty key⟩ ∧ shape.Unknown value key node) ∨
      ∃ step asked node w, v = w.below step ∧ shape.child? step = some asked ∧
        value.child? step = some node ∧ asked.check node = .error w ∧ node.Proper := by
  cases shape with
  | text pattern =>
    left
    cases value with
    | str s =>
      cases pattern with
      | some p =>
        rw [check] at h
        split at h
        · cases h
        · next hrefused =>
          obtain rfl := here_eq_error_iff.mp h
          exact ⟨rfl, .noMatch (Bool.eq_false_of_not_eq_true hrefused)⟩
      | none =>
        rw [check] at h
        cases h
    | null | bool _ | int _ | float _ | arr _ | obj _ =>
      rw [check] at h
      · obtain rfl := here_eq_error_iff.mp h
        refine ⟨rfl, .notText ?_⟩
        rintro s ⟨⟩
      · rintro s ⟨⟩
  | word words =>
    left
    cases value with
    | str s =>
      rw [check] at h
      split at h
      · cases h
      · next hrefused =>
        obtain rfl := here_eq_error_iff.mp h
        refine ⟨rfl, .notAWord ?_⟩
        rintro w hw ⟨⟩
        exact hrefused (List.contains_iff_mem.mpr hw)
    | null | bool _ | int _ | float _ | arr _ | obj _ =>
      rw [check] at h
      · obtain rfl := here_eq_error_iff.mp h
        refine ⟨rfl, .notAWord ?_⟩
        rintro w - ⟨⟩
      · rintro s ⟨⟩
  | list item nonempty distinct =>
    cases hproper with
    | @arr items hitems =>
      rw [check, bind_eq_error_iff] at h
      rcases h with hitem | ⟨_, -, hwhole⟩
      · obtain ⟨i, x, w, hx, hw, rfl⟩ := exists_of_checkItems hitem
        rw [Nat.zero_add]
        refine .inr (.inr ⟨i.repr, item, x, w, rfl, rfl, ?_, hw, ?_⟩)
        · rw [Json.child?, itemNumber?_repr]
          exact hx
        · exact hitems x (List.mem_of_getElem? hx)
      · exact .inl (breaks_of_whole_list hwhole)
    | null | bool _ | int _ | float _ | str _ | obj _ _ =>
      rw [check] at h
      · obtain rfl := here_eq_error_iff.mp h
        refine .inl ⟨rfl, .notList ?_⟩
        rintro items ⟨⟩
      · rintro items ⟨⟩
  | object properties required =>
    cases hproper with
    | @obj entries hasc hvalues =>
      rw [check, bind_eq_error_iff] at h
      rcases h with hentry | ⟨_, -, hwhole⟩
      · obtain ⟨⟨key, node⟩, he, hentry⟩ := exists_of_checkEntries hentry
        -- of the keys of an object this is the only one of its kind
        have hnode : lookupEntry key entries = some node :=
          Keyed.get?_eq_some_iff (m := ⟨entries, hasc⟩).mpr he
        rcases checkProperty_eq_error hentry with ⟨hunknown, rfl⟩ | ⟨asked, w, hasked, hw, rfl⟩
        · exact .inr (.inl ⟨key, node, rfl, properties, required, entries, rfl, rfl, hnode,
            hunknown⟩)
        · exact .inr (.inr ⟨key, asked, node, w, rfl, hasked, hnode, hw, hvalues _ he⟩)
      · exact .inl (breaks_of_checkRequired hwhole)
    | null | bool _ | int _ | float _ | str _ | arr _ =>
      rw [check] at h
      · obtain rfl := here_eq_error_iff.mp h
        refine .inl ⟨rfl, .notObject ?_⟩
        rintro entries ⟨⟩
      · rintro entries ⟨⟩

/-! ### The whole check -/

/-- What offends one step further in offends. -/
theorem Offends.below {shape asked : Shape} {doc inner node : Json} {step : String}
    {steps : List String} {reason : Reason} (hasked : shape.child? step = some asked)
    (hinner : doc.child? step = some inner) (h : asked.Offends inner steps node reason) :
    shape.Offends doc (step :: steps) node reason := by
  -- A descent by the new step is the old one from within.
  have hshape : ∀ front, shape.descend? (step :: front) = asked.descend? front := by
    intro front
    rw [descend?, hasked, Option.bind_eq_bind, Option.bind_some]
  have hdoc : ∀ front, doc.descend? (step :: front) = inner.descend? front := by
    intro front
    rw [Json.descend?, hinner, Option.bind_eq_bind, Option.bind_some]
  -- For an unknown key the holder is looked for, which is one step above; otherwise the node
  -- itself.
  cases reason with
  | unknownProperty key =>
    obtain ⟨front, last, holder, rfl, hlast, hholder, hunknown⟩ := h
    refine ⟨step :: front, last, holder, rfl, ?_, ?_, hunknown⟩
    · rw [hshape, hlast]
    · rw [hdoc, hholder]
  | missingProperty _ | wrongType _ _ | noMatch _ _ | notAWord _ _ | tooShort _ | repetition _ =>
    obtain ⟨last, hlast, hbreaks⟩ := h
    exact ⟨last, (hshape steps).trans hlast, hbreaks⟩

/-- A broken rule offends at the value itself. -/
theorem Breaks.offends {shape : Shape} {value : Json} {reason : Reason}
    (h : shape.Breaks value reason) : shape.Offends value [] value reason := by
  cases reason with
  | unknownProperty key => cases h
  | missingProperty _ | wrongType _ _ | noMatch _ _ | notAWord _ _ | tooShort _ | repetition _ =>
    exact ⟨shape, rfl, h⟩

/-- **Every violation is where it says.** The steps of a violation lead to a value, and that is
what the violation is about. -/
theorem offends_of_check {shape : Shape} {doc : Json} (hproper : doc.Proper) {v : Violation}
    (h : shape.check doc = .error v) :
    ∃ node, doc.descend? v.path = some node ∧ shape.Offends doc v.path node v.reason := by
  obtain ⟨path, reason⟩ := v
  -- the induction is on the steps; what is checked behind the first one is a smaller document
  induction path generalizing shape doc with
  | nil =>
    rcases check_eq_error hproper h with ⟨-, hbreaks⟩ | ⟨_, _, hv, -⟩ | ⟨_, _, _, _, hv, -⟩
    · exact ⟨doc, rfl, hbreaks.offends⟩
    · cases hv
    · cases hv
  | cons step rest ih =>
    rcases check_eq_error hproper h with
      ⟨hpath, -⟩ | ⟨key, node, hv, hunknown⟩ | ⟨_, asked, inner, w, hv, hasked, hinner, hw, hin⟩
    · cases hpath
    · cases hv
      obtain ⟨properties, required, entries, rfl, rfl, hnode, -⟩ := id hunknown
      refine ⟨node, ?_, [], _, _, rfl, rfl, rfl, hunknown⟩
      rw [Json.descend?, Json.child?, hnode]
      rfl
    · cases hv
      obtain ⟨node, hnode, hoffends⟩ := ih hin hw
      refine ⟨node, ?_, hoffends.below hasked hinner⟩
      rw [Json.descend?, hinner]
      exact hnode

end Shape

/-! ### Reading a pointer -/

namespace Pointer

theorem unpair_cons_of_ne {first second single a : Char} (h : a ≠ first) (cs : List Char) :
    unpair first second single (a :: cs) = a :: unpair first second single cs := by
  cases cs with
  | nil => rw [unpair, unpair] <;> nofun
  | cons b rest => rw [unpair, if_neg fun hab => h hab.1]

/-- The first pass: slashes are themselves again, and tildes are still escaped. A tilde that was
there before stands in front of a zero, so that it is never taken for the beginning of a slash. -/
theorem unpair_slashes (cs : List Char) :
    unpair '~' '1' '/' (cs.flatMap fun c =>
        (if c = '~' then "~0" else if c = '/' then "~1" else c.toString).toList) =
      cs.flatMap fun c => if c = '~' then ['~', '0'] else [c] := by
  induction cs with
  | nil => rfl
  | cons c cs ih =>
    rw [List.flatMap_cons, List.flatMap_cons]
    -- Tildes are written so that the marks of slashes are the only ones left to read.
    by_cases htilde : c = '~'
    · rw [if_pos htilde, if_pos htilde, show "~0".toList = ['~', '0'] from rfl, List.cons_append,
        List.cons_append, List.nil_append, unpair, if_neg (by decide),
        unpair_cons_of_ne (by decide), ih]
      rfl
    · rw [if_neg htilde, if_neg htilde]
      by_cases hslash : c = '/'
      · rw [if_pos hslash, show "~1".toList = ['~', '1'] from rfl, List.cons_append,
          List.cons_append, List.nil_append, unpair, if_pos (by decide), ih, hslash]
        rfl
      · rw [if_neg hslash, Char.toString, String.toList_singleton, List.cons_append,
          List.nil_append, unpair_cons_of_ne htilde, ih]
        rfl

/-- The second pass: tildes are themselves again. -/
theorem unpair_tildes (cs : List Char) :
    unpair '~' '0' '~' (cs.flatMap fun c => if c = '~' then ['~', '0'] else [c]) = cs := by
  induction cs with
  | nil => rfl
  | cons c cs ih =>
    rw [List.flatMap_cons]
    by_cases htilde : c = '~'
    · rw [if_pos htilde, List.cons_append, List.cons_append, List.nil_append, unpair,
        if_pos (by decide), ih, htilde]
    · rw [if_neg htilde, List.cons_append, List.nil_append, unpair_cons_of_ne htilde, ih]

/-- Every step is read back from its escapes, whatever characters it has. -/
theorem unescape_escapeStep (step : String) : unescape (Shape.escapeStep step) = step := by
  rw [unescape, Shape.escapeStep, Text.substitute, String.toList_ofList, unpair_slashes,
    unpair_tildes, String.ofList_toList]

end Pointer

theorem Shape.slash_notMem_escapeStep (step : String) : '/' ∉ (escapeStep step).toList := by
  rw [escapeStep, Text.substitute, String.toList_ofList, List.mem_flatMap]
  rintro ⟨c, -, hc⟩
  split at hc
  · revert hc
    decide
  · split at hc
    · revert hc
      decide
    · next hslash =>
      rw [Char.toString, String.toList_singleton, List.mem_singleton] at hc
      exact hslash hc.symm

/-- **The steps of a violation are read back from its pointer.** -/
theorem Pointer.steps?_pointer (v : Shape.Violation) : steps? v.pointer = some v.path := by
  have hcut : Text.cut '/' v.pointer = "" :: v.path.map Shape.escapeStep := by
    have hjoined : v.pointer.toList =
        ['/'].intercalate ([] :: v.path.map fun s => (Shape.escapeStep s).toList) := by
      rw [Pattern.intercalate_cons, Shape.Violation.pointer, String.toList_join, List.flatMap_map,
        List.nil_append, List.map_map, List.flatMap_def]
      refine congrArg List.flatten (List.map_congr_left fun step _ => ?_)
      rw [String.toList_append]
      rfl
    -- an escaped step has no slash in it, so the slashes are those between steps
    have hpieces : ∀ piece ∈ [] :: v.path.map (fun s => (Shape.escapeStep s).toList),
        '/' ∉ piece := by
      refine List.forall_mem_cons.mpr ⟨List.not_mem_nil, ?_⟩
      rw [List.forall_mem_map]
      exact fun step _ => Shape.slash_notMem_escapeStep step
    rw [Text.cut, hjoined, Text.cutList_eq_splitOn,
      List.splitOn_intercalate '/' hpieces (List.cons_ne_nil _ _), List.map_cons, List.map_map]
    refine congrArg _ (List.map_congr_left fun step _ => ?_)
    exact String.ofList_toList
  have hsteps : (v.path.map Shape.escapeStep).map unescape = v.path := by
    rw [List.map_map]
    refine (List.map_congr_left fun step _ => ?_).trans (List.map_id _)
    exact unescape_escapeStep step
  rw [steps?, hcut]
  exact congrArg some hsteps

/-- So the pointer leads where these steps lead. -/
theorem Json.resolve?_pointer (doc : Json) (v : Shape.Violation) :
    doc.resolve? v.pointer = doc.descend? v.path := by
  rw [Json.resolve?, Pointer.steps?_pointer]
  rfl

namespace Shape

open Json

/-- **A violation points at what is wrong.** The pointer of a refused document, read from the root,
leads to a value of the document. If the complaint is about an unknown key, then this is what stands
under that key, in an object that must not have it; and otherwise it is the value that breaks the
rule that the complaint is about. -/
theorem violation_points_at_offender {shape : Shape} {doc : Json} {v : Violation}
    (hproper : doc.Proper) (h : shape.check doc = .error v) :
    ∃ steps node, Pointer.steps? v.pointer = some steps ∧ doc.resolve? v.pointer = some node ∧
      shape.Offends doc steps node v.reason := by
  obtain ⟨node, hnode, hoffends⟩ := offends_of_check hproper h
  exact ⟨v.path, node, Pointer.steps?_pointer v, (doc.resolve?_pointer v).trans hnode, hoffends⟩

/-- A handle with a key that has a slash, and what looks like an escaped one. -/
def slashedKey : Json := obj [("handles", arr [obj [("a/b~1", int 7)]])]

theorem violation_points_at_slashedKey :
    slashedKey.Proper ∧
      description.check slashedKey =
        .error ⟨["handles", "0", "a/b~1"], .unknownProperty "a/b~1"⟩ ∧
      ∃ steps node, Pointer.steps? "/handles/0/a~1b~01" = some steps ∧
        slashedKey.resolve? "/handles/0/a~1b~01" = some node ∧
        description.Offends slashedKey steps node (.unknownProperty "a/b~1") := by
  have hproper : slashedKey.Proper := by
    have hhandle : (obj [("a/b~1", int 7)]).Proper := by
      refine .obj (List.pairwise_singleton _ _) ?_
      rw [List.forall_mem_singleton]
      exact .int 7
    refine .obj (List.pairwise_singleton _ _) ?_
    rw [List.forall_mem_singleton]
    refine .arr ?_
    rw [List.forall_mem_singleton]
    exact hhandle
  -- The check is run by its equations, as it recurses over nested lists.
  have hcheck : description.check slashedKey =
      .error ⟨["handles", "0", "a/b~1"], .unknownProperty "a/b~1"⟩ := by
    simp [slashedKey, description, listOf, handle, check, checkItems, checkEntries, checkProperty,
      Except.mapError, Violation.below, bind, Except.bind, show Nat.repr 0 = "0" from rfl]
  exact ⟨hproper, hcheck, violation_points_at_offender hproper hcheck⟩

end Shape

/-- **A text that is refused for its shape.** It is a document, and the pointer in the complaint leads
to what is wrong in it. That each key of an object is there once needs no mention: the reader has made
sure of it. -/
theorem Api.exists_offender_of_ofYaml {text : String} {v : Shape.Violation}
    (h : Api.ofYaml text = .error (.shape v)) :
    ∃ doc node, Yaml.load text = .ok doc ∧ doc.resolve? v.pointer = some node ∧
      Shape.description.Offends doc v.path node v.reason := by
  rw [Api.ofYaml] at h
  cases hload : Yaml.load text with
  | error problem =>
    rw [hload] at h
    cases h
  | ok doc =>
    have hrefused : Api.ofDocument doc = .error (.shape v) := by
      rw [hload] at h
      exact h
    rw [Api.ofDocument] at hrefused
    cases hcheck : Shape.description.check doc with
    | error v' =>
      rw [hcheck] at hrefused
      obtain rfl := LoadError.shape.inj (Except.error.inj hrefused)
      obtain ⟨node, hnode, hoffends⟩ := Shape.offends_of_check (Yaml.proper_of_load hload) hcheck
      exact ⟨doc, node, rfl, (doc.resolve?_pointer v').trans hnode, hoffends⟩
    | ok _ =>
      -- a document of the right shape is not refused for its shape
      rw [hcheck] at hrefused
      cases hread : Api.ofJson? doc with
      | none =>
        rw [hread] at hrefused
        cases hrefused
      | some a =>
        rw [hread] at hrefused
        cases hrefused

end Bindery
