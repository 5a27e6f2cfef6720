import Bindery.Proofs.Names.Description
import Bindery.Proofs.Names.Spelling
import Bindery.Proofs.Wasm.Allocations

/-!
# The names in a wrapper

A wrapper in JavaScript names its parameters, the pointers and lengths that it allocates, the
result pointer, the list of allocations, and the status or the result of the call. A module
in which one function declares a name twice does not load at all.

The names come in classes that cannot meet: a parameter begins with a small letter, and
whatever the wrapper adds begins with an underscore, all but one. Within the classes there are
three ways to meet, and `NamesApart` excludes them:

* two parameters are spelled alike in camel case, `x_1` and `x1`;
* a parameter is spelled like the list of allocations, which has no underscore in front;
* a parameter is spelled `out`, so that its pointer is called like the result pointer.

`wrapper_names_distinct_iff` says that nothing else goes wrong in a description that has been
read, and `doubled_names_reel` shows a valid description where all three do.
-/

namespace Bindery

namespace JavaScript

open Naming (camelCase condense)
open Wasm (Steps exists_steps_of_wrapper Position positions)

/-! ### Identifiers -/

variable {s t : String}

theorem identifier_cases (s : String) :
    identifier s = camelCase s ∨ identifier s = camelCase s ++ "_" := by
  unfold identifier
  dsimp only
  split
  · exact .inr rfl
  · exact .inl rfl

/-- The underscore behind a reserved word is no letter of camel case. -/
theorem camelCase_ne_append (h : isSnakeIdentifier s = true) : camelCase s ≠ t ++ "_" := by
  intro heq
  refine Naming.underscore_notMem_camelCase h ?_
  rw [heq, String.toList_append]
  exact List.mem_append_right _ (List.mem_singleton_self _)

/-- **Two names in snake case give one identifier exactly when they condense to one text.** -/
theorem identifier_eq_iff (hs : isSnakeIdentifier s = true) (ht : isSnakeIdentifier t = true) :
    identifier s = identifier t ↔ condense s = condense t := by
  rw [← Naming.camelCase_eq_iff hs ht]
  constructor
  · intro halike
    -- Each name may have the underscore behind it or not; names with and without it differ.
    rcases identifier_cases s with hs' | hs' <;> rcases identifier_cases t with ht' | ht'
    · exact hs'.symm.trans (halike.trans ht')
    · rw [hs', ht'] at halike
      exact absurd halike (camelCase_ne_append hs)
    · rw [hs', ht'] at halike
      exact absurd halike.symm (camelCase_ne_append ht)
    · rw [hs', ht'] at halike
      exact (String.append_left_inj "_").mp halike
  · intro halike
    rw [identifier, identifier, halike]

/-- An identifier begins with a small letter. -/
theorem exists_head_identifier (h : isSnakeIdentifier s = true) :
    ∃ c, (identifier s).toList.head? = some c ∧ c.isLower = true := by
  obtain ⟨c, cs, -, hlower, hcamel⟩ := Naming.exists_toList_camelCase h
  refine ⟨c, ?_, hlower⟩
  rcases identifier_cases s with hs | hs
  · rw [hs, hcamel]
    rfl
  · rw [hs, String.toList_append, hcamel]
    rfl

/-! ### Names that are added -/

/-- The text begins with this character. Whatever a wrapper adds begins with an underscore,
but for the list of allocations. -/
def Begins (c : Char) (text : String) : Prop := text.toList.head? = some c

instance (c : Char) (text : String) : Decidable (Begins c text) :=
  inferInstanceAs (Decidable (_ = _))

theorem Begins.append {c : Char} (h : Begins c s) (t : String) : Begins c (s ++ t) := by
  rw [Begins, String.toList_append, List.head?_append, h]
  rfl

/-- No parameter is called like a name that is added. -/
theorem identifier_ne_of_begins (h : isSnakeIdentifier s = true) {n : String} (hn : Begins '_' n) :
    identifier s ≠ n := by
  rintro rfl
  obtain ⟨c, hc, hlower⟩ := exists_head_identifier h
  obtain rfl : '_' = c := Option.some.inj (hn.symm.trans hc)
  exact absurd hlower (by decide)

theorem allocs_ne_of_begins {n : String} (hn : Begins '_' n) : "allocs" ≠ n := by
  rintro rfl
  exact absurd hn (by decide)

/-- The name that a position declares. -/
def localName? : Position → Option String
  | .pointer p => some (ptrName p)
  | .length p => some (lenName p)
  | .result _ | .handle _ | .number _ _ => none

/-- The names that a parameter adds. -/
def localNames (types : Schema) (p : Parameter) : List String :=
  (positions types p).filterMap localName?

/-- The parameter is passed by address. -/
def TakesPointer (types : Schema) (p : Parameter) : Prop := Position.pointer p ∈ positions types p

theorem localNames_cases (types : Schema) (p : Parameter) :
    ¬ TakesPointer types p ∧ localNames types p = [] ∨
      TakesPointer types p ∧
        (localNames types p = [ptrName p] ∨ localNames types p = [ptrName p, lenName p]) := by
  unfold TakesPointer localNames positions
  split
  · exact .inr ⟨List.mem_cons_self, .inr rfl⟩
  · exact .inr ⟨List.mem_cons_self, .inl rfl⟩
  · exact .inl ⟨by simp, rfl⟩
  · exact .inl ⟨by simp, rfl⟩
  · split
    · exact .inl ⟨by simp, rfl⟩
    · exact .inr ⟨List.mem_cons_self, .inl rfl⟩
  · exact .inl ⟨List.not_mem_nil, rfl⟩

/-- What a parameter declares are the names that it adds. -/
theorem declared_marshal {ctx : Context} {p : Parameter} {x : Marshalled}
    (h : marshal ctx p = .ok x) : x.setup.flatMap Setup.declared = localNames ctx.types p := by
  have hargument : Arg.local? ∘ Position.argument = localName? := by
    funext position
    cases position with
    | number p q => cases q <;> rfl
    | result _ | pointer _ | length _ | handle _ => rfl
  rw [(balanced_marshal h).declared, Wasm.marshal_args h, List.filterMap_map, hargument, localNames]

section Locals

variable {types : Schema} {p q : Parameter} {n : String}

theorem mem_localNames (h : n ∈ localNames types p) : n = ptrName p ∨ n = lenName p := by
  rcases localNames_cases types p with ⟨-, hnames⟩ | ⟨-, hnames | hnames⟩
  · rw [hnames] at h
    cases h
  · rw [hnames, List.mem_singleton] at h
    exact .inl h
  · rw [hnames, List.mem_cons, List.mem_singleton] at h
    exact h

theorem begins_of_mem_localNames (h : n ∈ localNames types p) : Begins '_' n := by
  rcases mem_localNames h with rfl | rfl
  · exact (Begins.append (by decide) _).append _
  · exact (Begins.append (by decide) _).append _

theorem ptrName_ne_lenName (p q : Parameter) : ptrName p ≠ lenName q := by
  have hptr : (ptrName p).toList.getLast? = some 'r' := by
    rw [ptrName, String.toList_append, List.getLast?_append]
    rfl
  have hlen : (lenName q).toList.getLast? = some 'n' := by
    rw [lenName, String.toList_append, List.getLast?_append]
    rfl
  intro heq
  rw [heq, hlen] at hptr
  exact absurd hptr (by decide)

theorem camelCase_eq_of_ptrName_eq (h : ptrName p = ptrName q) :
    camelCase p.name = camelCase q.name := by
  rw [ptrName, ptrName] at h
  exact (String.append_right_inj "_").mp ((String.append_left_inj "Ptr").mp h)

theorem camelCase_eq_of_lenName_eq (h : lenName p = lenName q) :
    camelCase p.name = camelCase q.name := by
  rw [lenName, lenName] at h
  exact (String.append_right_inj "_").mp ((String.append_left_inj "Len").mp h)

theorem nodup_localNames (types : Schema) (p : Parameter) : (localNames types p).Nodup := by
  rcases localNames_cases types p with ⟨-, hnames⟩ | ⟨-, hnames | hnames⟩
  · rw [hnames]
    exact List.nodup_nil
  · rw [hnames]
    exact List.nodup_singleton _
  · rw [hnames, List.nodup_cons, List.mem_singleton]
    exact ⟨ptrName_ne_lenName p p, List.nodup_singleton _⟩

/-- Parameters that are spelled apart add different names. -/
theorem disjoint_localNames (h : camelCase p.name ≠ camelCase q.name) :
    (localNames types p).Disjoint (localNames types q) := by
  intro n hp hq
  rcases mem_localNames hp with rfl | rfl <;> rcases mem_localNames hq with hn | hn
  · exact h (camelCase_eq_of_ptrName_eq hn)
  · exact ptrName_ne_lenName p q hn
  · exact ptrName_ne_lenName q p hn.symm
  · exact h (camelCase_eq_of_lenName_eq hn)

/-- The pointer of a parameter is called like the result pointer when the parameter is called
`out`. -/
theorem outPtr_mem_localNames_iff (h : isSnakeIdentifier p.name = true) :
    outPtr ∈ localNames types p ↔ TakesPointer types p ∧ condense p.name = "out" := by
  have hptr : ptrName p = outPtr ↔ condense p.name = "out" := by
    have hout : condense "out" = "out" := by decide
    have hcamel : camelCase "out" = "out" := by decide
    rw [← hout, ← Naming.camelCase_eq_iff h (by decide), hcamel]
    constructor
    · intro heq
      rw [ptrName] at heq
      exact (String.append_right_inj "_").mp ((String.append_left_inj "Ptr").mp heq)
    · intro heq
      rw [ptrName, heq]
      rfl
  have hlen : outPtr ≠ lenName p := (append_ne_of_not_suffix (by decide)).symm
  rw [← hptr]
  -- By what the parameter declares: nothing, its pointer, or the pointer and a length.
  rcases localNames_cases types p with ⟨htakes, hnames⟩ | ⟨htakes, hnames | hnames⟩
  · rw [hnames]
    exact iff_of_false List.not_mem_nil fun hand => htakes hand.1
  · rw [hnames, List.mem_singleton, and_iff_right htakes, eq_comm]
  · rw [hnames, List.mem_cons, List.mem_singleton, or_iff_left hlen, and_iff_right htakes, eq_comm]

end Locals

/-! ### All names of a wrapper -/

/-- The names that are declared with the call. -/
def Outcome.declared : Outcome → List String
  | done | stored _ => []
  | status | statusThen _ => ["_rc"]
  | direct _ => ["_result"]

/-- **The names of a wrapper**: its parameters, and what it declares. -/
def Wrapper.names (w : Wrapper) : List String :=
  w.params ++ (w.setup.flatMap Setup.declared ++ w.outcome.declared)

/-- **The names of a method stay apart in its wrapper.** -/
structure NamesApart (ctx : Context) (m : Method) : Prop where
  /-- No two parameters are spelled alike. -/
  params : (m.parameters.map fun p => condense p.name).Nodup
  /-- Where a record is passed, no parameter is spelled like the list of allocations. -/
  allocs : (∃ p ∈ m.parameters, PassesRecord ctx.types p) →
    ∀ p ∈ m.parameters, condense p.name ≠ "allocs"
  /-- Where there is a result pointer, no parameter that takes a pointer is spelled `out`. -/
  out : (resultPlace? ctx m).isSome = true →
    ∀ p ∈ m.parameters, TakesPointer ctx.types p → condense p.name ≠ "out"

section Names

variable {ctx : Context} {op : Operation} {w : Wrapper} {xs : List Marshalled}
  {size? : Option Nat}

/-- **The names of a wrapper, class by class.** -/
theorem names_eq (steps : Steps ctx op w xs size?) :
    w.names = op.method.parameters.map (fun p => identifier p.name)
      ++ ((if w.usesAllocs then ["allocs"] else [])
        ++ (op.method.parameters.flatMap (localNames ctx.types)
          ++ ((if (resultPlace? ctx op.method).isSome then [outPtr] else [])
            ++ w.outcome.declared))) := by
  -- The names of a wrapper in the order in which the code declares them.
  have hparts : xs.map (fun x => x.setup.flatMap Setup.declared) =
      op.method.parameters.map (localNames ctx.types) :=
    map_eq_map_of_forall₂ steps.parts fun p x hx => declared_marshal hx
  have hlocals : (xs.flatMap (·.setup)).flatMap Setup.declared =
      op.method.parameters.flatMap (localNames ctx.types) := by
    rw [List.flatMap_assoc, List.flatMap_def, hparts, ← List.flatMap_def]
  have hlist : (if xs.any (·.usesAllocs) then [Setup.allocs] else []).flatMap Setup.declared =
      if xs.any (·.usesAllocs) then ["allocs"] else [] := by
    split <;> rfl
  have hroom : (size?.map (Setup.reserve outPtr)).toList.flatMap Setup.declared =
      if (resultPlace? ctx op.method).isSome then [outPtr] else [] := by
    rw [← steps.room]
    cases size? <;> rfl
  rw [Wrapper.names, steps.params, steps.setup, steps.usesAllocs, List.flatMap_append,
    List.flatMap_append, hlist, hlocals, hroom]
  simp only [List.append_assoc]

/-- A name that is declared on a condition. -/
theorem mem_optional_iff {c : Bool} {m n : String} :
    m ∈ (if c then [n] else []) ↔ c = true ∧ m = n := by
  rw [List.mem_ite_nil_right, List.mem_singleton]

theorem nodup_optional (c : Bool) (n : String) : (if c then [n] else []).Nodup := by
  cases c with
  | true => exact List.nodup_singleton n
  | false => exact List.nodup_nil

/-- The names that are declared with the call are no pointers and no lengths. -/
theorem notMem_declared_of_mem_localNames {o : Outcome} {p : Parameter} {n : String}
    (h : n ∈ localNames ctx.types p) : n ∉ o.declared := by
  have hstatus : n ≠ "_rc" := by
    rcases mem_localNames h with rfl | rfl <;> exact append_ne_of_not_suffix (by decide)
  have hresult : n ≠ "_result" := by
    rcases mem_localNames h with rfl | rfl <;> exact append_ne_of_not_suffix (by decide)
  cases o with
  | done | stored _ => exact List.not_mem_nil
  | status | statusThen _ => exact fun hmem => hstatus (List.mem_singleton.mp hmem)
  | direct _ => exact fun hmem => hresult (List.mem_singleton.mp hmem)

theorem outPtr_notMem_declared (o : Outcome) : outPtr ∉ o.declared := by
  cases o with
  | done | stored _ => exact List.not_mem_nil
  | status | statusThen _ | direct _ =>
    intro hmem
    exact absurd (List.mem_singleton.mp hmem) (by decide)

theorem begins_of_mem_declared {o : Outcome} {n : String} (h : n ∈ o.declared) : Begins '_' n := by
  cases o with
  | done | stored _ => cases h
  | status | statusThen _ | direct _ =>
    obtain rfl := List.mem_singleton.mp h
    decide

theorem nodup_identifiers_iff {ps : List Parameter}
    (snake : ∀ p ∈ ps, isSnakeIdentifier p.name = true) :
    (ps.map fun p => identifier p.name).Nodup ↔ (ps.map fun p => condense p.name).Nodup := by
  unfold List.Nodup
  rw [List.pairwise_map, List.pairwise_map]
  exact List.Pairwise.iff_of_mem fun hp hq => not_congr (identifier_eq_iff (snake _ hp) (snake _ hq))

/-- The parameter that is called like the list of allocations. -/
theorem identifier_eq_allocs_iff (h : isSnakeIdentifier s = true) :
    identifier s = "allocs" ↔ condense s = "allocs" := by
  have hidentifier : identifier "allocs" = "allocs" := by decide
  have hcondense : condense "allocs" = "allocs" := by decide
  have hiff := identifier_eq_iff h (t := "allocs") (by decide)
  rwa [hidentifier, hcondense] at hiff

theorem nodup_localNames_flatMap {types : Schema} {ps : List Parameter}
    (snake : ∀ p ∈ ps, isSnakeIdentifier p.name = true)
    (h : (ps.map fun p => condense p.name).Nodup) : (ps.flatMap (localNames types)).Nodup := by
  rw [List.nodup_flatMap]
  refine ⟨fun p _ => nodup_localNames types p, ?_⟩
  rw [List.Nodup, List.pairwise_map] at h
  refine h.imp_of_mem fun {p q} hp hq hne => disjoint_localNames ?_
  rwa [Ne, Naming.camelCase_eq_iff (snake p hp) (snake q hq)]

theorem namesApart_of_nodup (snake : ∀ p ∈ op.method.parameters, isSnakeIdentifier p.name = true)
    (steps : Steps ctx op w xs size?) (h : w.names.Nodup) : NamesApart ctx op.method := by
  rw [names_eq steps, List.nodup_append, List.nodup_append, List.nodup_append] at h
  obtain ⟨hparams, ⟨-, ⟨-, -, hlocals⟩, -⟩, hmeet⟩ := h
  refine ⟨(nodup_identifiers_iff snake).mp hparams, ?_, ?_⟩
  -- The list of allocations and the pointer of the result are names like the others.
  · intro hrecord p hp hname
    have huses : w.usesAllocs = true :=
      steps.usesAllocs.trans ((any_usesAllocs_iff steps).mpr hrecord)
    exact hmeet (identifier p.name) (List.mem_map_of_mem hp) "allocs"
      (List.mem_append_left _ (mem_optional_iff.mpr ⟨huses, rfl⟩))
      ((identifier_eq_allocs_iff (snake p hp)).mpr hname)
  · intro hplace p hp htakes hname
    have hmem : outPtr ∈ localNames ctx.types p :=
      (outPtr_mem_localNames_iff (snake p hp)).mpr ⟨htakes, hname⟩
    exact hlocals outPtr (List.mem_flatMap.mpr ⟨p, hp, hmem⟩) outPtr
      (List.mem_append_left _ (mem_optional_iff.mpr ⟨hplace, rfl⟩)) rfl

theorem nodup_of_namesApart (snake : ∀ p ∈ op.method.parameters, isSnakeIdentifier p.name = true)
    (steps : Steps ctx op w xs size?) (h : NamesApart ctx op.method) : w.names.Nodup := by
  rw [names_eq steps]
  -- from the last class to the first one, each apart from all that follow
  have hcall : w.outcome.declared.Nodup := by
    cases w.outcome with
    | done | stored _ => exact List.nodup_nil
    | status | statusThen _ | direct _ => exact List.nodup_singleton _
  have hroom : ((if (resultPlace? ctx op.method).isSome then [outPtr] else [])
      ++ w.outcome.declared).Nodup := by
    refine List.nodup_append.mpr ⟨nodup_optional _ _, hcall, fun a ha b hb => ?_⟩
    obtain ⟨-, rfl⟩ := mem_optional_iff.mp ha
    rintro rfl
    exact outPtr_notMem_declared w.outcome hb
  have hadded : (op.method.parameters.flatMap (localNames ctx.types)
      ++ ((if (resultPlace? ctx op.method).isSome then [outPtr] else [])
        ++ w.outcome.declared)).Nodup := by
    refine List.nodup_append.mpr ⟨nodup_localNames_flatMap snake h.params, hroom, ?_⟩
    intro a ha b hb
    obtain ⟨p, hp, ha⟩ := List.mem_flatMap.mp ha
    rintro rfl
    rcases List.mem_append.mp hb with hb | hb
    · obtain ⟨hplace, rfl⟩ := mem_optional_iff.mp hb
      obtain ⟨htakes, hname⟩ := (outPtr_mem_localNames_iff (snake p hp)).mp ha
      exact h.out hplace p hp htakes hname
    · exact notMem_declared_of_mem_localNames ha hb
  have hbegins : ∀ n ∈ op.method.parameters.flatMap (localNames ctx.types)
      ++ ((if (resultPlace? ctx op.method).isSome then [outPtr] else []) ++ w.outcome.declared),
      Begins '_' n := by
    intro n hn
    rcases List.mem_append.mp hn with hn | hn
    · obtain ⟨p, -, hn⟩ := List.mem_flatMap.mp hn
      exact begins_of_mem_localNames hn
    rcases List.mem_append.mp hn with hn | hn
    · obtain ⟨-, rfl⟩ := mem_optional_iff.mp hn
      decide
    · exact begins_of_mem_declared hn
  refine List.nodup_append.mpr ⟨(nodup_identifiers_iff snake).mpr h.params, ?_, ?_⟩
  · refine List.nodup_append.mpr ⟨nodup_optional _ _, hadded, fun a ha b hb => ?_⟩
    obtain ⟨-, rfl⟩ := mem_optional_iff.mp ha
    exact allocs_ne_of_begins (hbegins b hb)
  · intro a ha b hb
    obtain ⟨p, hp, rfl⟩ := List.mem_map.mp ha
    rcases List.mem_append.mp hb with hb | hb
    · obtain ⟨huses, rfl⟩ := mem_optional_iff.mp hb
      have hrecord := (any_usesAllocs_iff steps).mp (steps.usesAllocs.symm.trans huses)
      exact mt (identifier_eq_allocs_iff (snake p hp)).mp (h.allocs hrecord p hp)
    · exact identifier_ne_of_begins (snake p hp) (hbegins b hb)

end Names

/-! ### What the lines declare -/

/-- **What a statement declares with `const`.** -/
inductive Declares : String → List String → Prop where
  | one (n rest : String) : Declares ("const " ++ n ++ " = " ++ rest) [n]
  | two (a b rest : String) : Declares ("const [" ++ a ++ ", " ++ b ++ "] = " ++ rest) [a, b]
  | other {text : String} (h : ¬ "const ".toList <+: text.toList) : Declares text []

theorem declares_of_begins {c : Char} {text : String} (h : Begins c text) (hc : c ≠ 'c') :
    Declares text [] := by
  refine .other fun hprefix => hc ?_
  obtain ⟨rest, hrest⟩ := hprefix
  rw [Begins, ← hrest] at h
  exact (Option.some.inj h).symm

/-- What lines declare, one after the other. -/
def LinesDeclare (ls : List Line) (ns : List String) : Prop :=
  ∃ nss, List.Forall₂ (fun l n => Declares l.text n) ls nss ∧ nss.flatten = ns

theorem linesDeclare_of_forall₂ {α : Type} {xs : List α} {text : α → String}
    {ns : α → List String} (h : ∀ x ∈ xs, Declares (text x) (ns x)) :
    LinesDeclare (Code.lines (xs.map text)) (xs.flatMap ns) := by
  refine ⟨xs.map ns, ?_, List.flatMap_def.symm⟩
  rw [Code.lines, List.map_map, List.forall₂_map_left_iff, List.forall₂_map_right_iff,
    List.forall₂_same]
  exact h

section Lines

variable {as bs ls : List Line} {ms ns : List String} {text : String}

theorem LinesDeclare.append (ha : LinesDeclare as ms) (hb : LinesDeclare bs ns) :
    LinesDeclare (as ++ bs) (ms ++ ns) := by
  obtain ⟨mss, hms, rfl⟩ := ha
  obtain ⟨nss, hns, rfl⟩ := hb
  exact ⟨mss ++ nss, List.rel_append hms hns, List.flatten_append⟩

theorem LinesDeclare.indent (h : LinesDeclare ls ns) : LinesDeclare (Code.indent ls) ns := by
  obtain ⟨nss, hns, hflatten⟩ := h
  exact ⟨nss, List.forall₂_map_left_iff.mpr hns, hflatten⟩

theorem linesDeclare_line (h : Declares text ns) : LinesDeclare (Code.lines [text]) ns :=
  ⟨[ns], .cons h .nil, List.append_nil ns⟩

theorem linesDeclare_nil (h : Code.Each (Declares · []) ls) : LinesDeclare ls [] := by
  induction ls with
  | nil => exact ⟨[], .nil, rfl⟩
  | cons l ls ih =>
    obtain ⟨hl, hls⟩ := Code.each_cons.mp h
    obtain ⟨nss, hnss, hflatten⟩ := ih hls
    exact ⟨[] :: nss, .cons hl hnss, hflatten⟩

end Lines

/-- A statement in front of the call. -/
theorem declares_setup (s : Setup) : Declares s.text s.declared := by
  cases s with
  | allocs => exact .one "allocs" "[];"
  | encode ptr value =>
    have hsplit : " = _encodeString(" = " = " ++ "_encodeString(" := by decide
    have htext := Declares.one ptr ("_encodeString(" ++ value ++ ");")
    change Declares ("const " ++ ptr ++ " = _encodeString(" ++ value ++ ");") [ptr]
    rw [hsplit]
    simpa only [String.append_assoc] using htext
  | copyBuffer ptr len value =>
    have hsplit : "] = _copyBufferToWasm(" = "] = " ++ "_copyBufferToWasm(" := by decide
    have htext := Declares.two ptr len ("_copyBufferToWasm(" ++ value ++ ");")
    change Declares ("const [" ++ ptr ++ ", " ++ len ++ "] = _copyBufferToWasm(" ++ value ++ ");")
      [ptr, len]
    rw [hsplit]
    simpa only [String.append_assoc] using htext
  | reserve ptr size =>
    have hsplit : " = _malloc(" = " = " ++ "_malloc(" := by decide
    have htext := Declares.one ptr ("_malloc(" ++ toString size ++ ");")
    change Declares ("const " ++ ptr ++ " = _malloc(" ++ toString size ++ ");") [ptr]
    rw [hsplit]
    simpa only [String.append_assoc] using htext
  | store cell ptr value =>
    -- a value is written by a call of a helper, whose name begins with an underscore
    have hbegins : Begins '_' (cell.write ptr value) := by
      cases cell with
      | scalar p =>
        cases p <;> (unfold Cell.write; repeat' first | decide | refine Begins.append ?_ _)
      | text | record q =>
        unfold Cell.write
        repeat' first | decide | refine Begins.append ?_ _
    exact declares_of_begins hbegins (by decide)

/-- The call, the copies back and the result. -/
theorem linesDeclare_callLines (w : Wrapper) : LinesDeclare w.callLines w.outcome.declared := by
  -- what does not begin like `const` declares nothing
  have hsilent {c : Char} {head : String} (rest : String) (h : Begins c head) (hc : c ≠ 'c') :
      Declares (head ++ rest) [] := declares_of_begins (h.append rest) hc
  have hcall : Begins '_' w.call := by
    refine ((Begins.append (Begins.append ?_ _) _).append _).append _
    decide
  have hback : LinesDeclare (Code.lines (w.writeBacks.map WriteBack.text)) [] := by
    refine linesDeclare_nil (Code.each_lines.mpr (List.forall_mem_map.mpr fun b _ => ?_))
    cases b <;> (unfold WriteBack.text; simp only [String.append_assoc])
    · exact hsilent _ (by decide : Begins '_' _) (by decide)
    · exact hsilent _ (by decide : Begins 'O' _) (by decide)
  -- what is bound is declared, whatever it is bound to
  have hbound (n : String) : LinesDeclare (Code.lines ["const " ++ n ++ " = " ++ w.call ++ ";"]) [n] := by
    refine linesDeclare_line ?_
    rw [String.append_assoc]
    exact .one n (w.call ++ ";")
  have hstatus : LinesDeclare w.statusLines ["_rc"] := by
    refine (hbound "_rc").append (linesDeclare_nil (Code.each_block.mpr ⟨?_, ?_, ?_⟩))
    · exact .other (by decide)
    · refine Code.each_lines.mpr (List.forall_mem_singleton.mpr ?_)
      rw [String.append_assoc]
      exact hsilent _ (by decide : Begins 't' _) (by decide)
    · exact .other (by decide)
  have hanswer (e : String) : LinesDeclare (Code.lines ["return " ++ e ++ ";"]) [] := by
    refine linesDeclare_line ?_
    rw [String.append_assoc]
    exact hsilent _ (by decide : Begins 'r' _) (by decide)
  have halone : LinesDeclare (Code.lines [w.call ++ ";"]) [] :=
    linesDeclare_line (hsilent _ hcall (by decide))
  unfold Wrapper.callLines
  cases w.outcome with
  | done => exact halone.append hback
  | status => exact hstatus.append hback
  | statusThen e => exact (hstatus.append hback).append (hanswer e)
  | stored e => exact (halone.append hback).append (hanswer e)
  | direct e => exact ((hbound "_result").append hback).append (hanswer e)

theorem linesDeclare_freeLines (w : Wrapper) : LinesDeclare w.freeLines [] := by
  refine linesDeclare_nil (Code.each_append.mpr ⟨?_, ?_⟩)
  · refine Code.each_lines.mpr (List.forall_mem_map.mpr fun f _ => ?_)
    exact declares_of_begins ((Begins.append (by decide : Begins '_' _) _).append _) (by decide)
  · split
    · refine Code.each_lines.mpr (List.forall_mem_singleton.mpr ?_)
      exact .other (by decide)
    · exact Code.each_nil

/-- **A wrapper declares what it is said to declare.** -/
theorem linesDeclare_body {ctx : Context} {op : Operation} {w : Wrapper}
    (h : Wrapper.ofOperation ctx op = .ok w) :
    LinesDeclare w.body (w.setup.flatMap Setup.declared ++ w.outcome.declared) := by
  obtain ⟨xs, size?, steps⟩ := exists_steps_of_wrapper h
  have hcalls := linesDeclare_callLines w
  rw [Wrapper.body]
  split
  · have hsetup : LinesDeclare (Code.lines (w.setup.map Setup.text)) (w.setup.flatMap Setup.declared) :=
      linesDeclare_of_forall₂ fun s _ => declares_setup s
    have htry : LinesDeclare (Code.lines ["try \x7b"]) [] :=
      linesDeclare_line (.other (by decide))
    have hfinally : LinesDeclare (Code.lines ["\x7d finally \x7b"]) [] :=
      linesDeclare_line (.other (by decide))
    have hclose : LinesDeclare (Code.lines ["\x7d"]) [] :=
      linesDeclare_line (.other (by decide))
    have hfree := (linesDeclare_freeLines w).indent
    have hbody := ((((hsetup.append htry).append hcalls.indent).append hfinally).append hfree).append
      hclose
    simpa only [List.append_nil] using hbody
  · next hallocates =>
    -- nothing is allocated, so nothing is declared in front of the call
    have hfrees : w.frees = [] := by
      by_contra hne
      refine hallocates ?_
      rw [Wrapper.allocates, List.isEmpty_eq_false_iff.mpr hne]
      rfl
    rw [(bare_of_frees steps hfrees).1]
    exact hcalls

/-! ### Descriptions -/

/-- **A wrapper declares no name twice exactly when the names of its method stay apart.** Its
names are the identifiers of its parameters and what the lines of its body declare. There are
wrappers for all operations but destructors, see `wrappers`. -/
theorem wrapper_names_distinct_iff {doc : Json} {ctx : Context} {op : Operation} {w : Wrapper}
    (described : Api.ofDocument doc = .ok ctx.api) (hop : op ∈ ctx.api.operations)
    (hkind : op.kind ≠ .destructor) (h : Wrapper.ofOperation ctx op = .ok w) :
    w.params = op.method.parameters.map (fun p => identifier p.name) ∧
      LinesDeclare w.body (w.setup.flatMap Setup.declared ++ w.outcome.declared) ∧
      (w.names.Nodup ↔ NamesApart ctx op.method) := by
  have snake := snakeNamed_of_ofDocument described
  obtain ⟨xs, size?, steps⟩ := exists_steps_of_wrapper h
  have hparams : ∀ p ∈ op.method.parameters, isSnakeIdentifier p.name = true := by
    obtain ⟨i, hi, hop⟩ := List.mem_flatMap.mp hop
    rcases mem_operations_iff.mp hop with ⟨c, hc, rfl⟩ | ⟨handle, -, rfl⟩ | ⟨m, hm, rfl⟩
    · exact ((snake.interfaces i hi).constructors c hc).parameters
    · exact absurd rfl hkind
    · exact ((snake.interfaces i hi).methods m hm).parameters
  exact ⟨steps.params, linesDeclare_body h,
    fun hnames => namesApart_of_nodup hparams steps hnames,
    fun hapart => nodup_of_namesApart hparams steps hapart⟩

/-- A method whose names stay apart. -/
def reelPlay : Method where
  name := "play"
  parameters := [⟨"title", "string", none, none⟩, ⟨"frames", "buffer<uint8>", some .ref, none⟩,
    ⟨"switch", "bool", none, none⟩, ⟨"crop", "Crop", some .ref, none⟩]
  returns := some { type := "int32" }
  error := some "Outcome"

/-- Two parameters of this method are spelled alike. -/
def reelMove : Method where
  name := "move"
  parameters := [⟨"x_1", "int32", none, none⟩, ⟨"x1", "int32", none, none⟩]

/-- A parameter of this method is called like the list of allocations. -/
def reelCut : Method where
  name := "cut"
  parameters := [⟨"allocs", "int32", none, none⟩, ⟨"crop", "Crop", none, none⟩]

/-- The pointer of a parameter of this method is called like the result pointer. -/
def reelSave : Method where
  name := "save"
  parameters := [⟨"out", "string", none, none⟩]
  returns := some { type := "int32" }
  error := some "Outcome"

def reelInterface : Interface where
  name := "reel"
  methods := [reelPlay, reelMove, reelCut, reelSave]

def reelContext : Context where
  api :=
    { metadata := { name := "demo", version := "1.0.0", language := .rust }
      schemas := ["demo.fbs"]
      interfaces := [reelInterface] }
  types := (Keyed.empty.insert "Crop" { kind := .struct, fields := [⟨"width", .primitive .float32⟩] })
    |>.insert "Outcome" { kind := .enum, values := [⟨"Ok", 0⟩, ⟨"Failed", 1⟩] }

theorem described_reel : Api.ofDocument reelContext.api.toJson = .ok reelContext.api :=
  ofDocument_eq_ok_iff.mpr (by decide +kernel)

/-- A record of the example, however it is passed. -/
theorem marshal_crop {p : Parameter} (h : p.type = "Crop") :
    marshal reelContext p = .ok
      { setup := [.reserve (ptrName p) 4, .store (.record "Crop") (ptrName p) (identifier p.name)]
        args := [.pointer (ptrName p)]
        frees := [ptrName p]
        writeBacks := if p.effectiveTransfer = .refMut then
          [.record "Crop" (ptrName p) (identifier p.name)] else []
        usesAllocs := true } := by
  have hclass : Abi.classify "Crop" = .ok (.qualified "Crop") := by decide +kernel
  have hsize : Abi.valueSize reelContext.types "Crop" = .ok 4 := by cbv
  rw [marshal, h]
  simp only [hclass, marshalSchema]
  rw [h, hsize]
  cases p.effectiveTransfer <;> rfl

theorem names_play :
    (Wrapper.ofOperation reelContext ⟨reelInterface, .method, reelPlay⟩).map Wrapper.names =
      .ok ["title", "frames", "switch_", "crop", "allocs", "_titlePtr", "_framesPtr",
        "_framesLen", "_cropPtr", "_outPtr", "_rc"] := by
  have hcrop := marshal_crop (p := ⟨"crop", "Crop", some .ref, none⟩) rfl
  simp only [Wrapper.ofOperation, reelPlay, List.mapM_cons, hcrop]
  decide +kernel

theorem names_cut :
    (Wrapper.ofOperation reelContext ⟨reelInterface, .method, reelCut⟩).map Wrapper.names =
      .ok ["allocs", "crop", "allocs", "_cropPtr"] := by
  have hcrop := marshal_crop (p := ⟨"crop", "Crop", none, none⟩) rfl
  simp only [Wrapper.ofOperation, reelCut, List.mapM_cons, hcrop]
  decide +kernel

theorem wrapper_names_distinct_play :
    Api.ofDocument reelContext.api.toJson = .ok reelContext.api ∧
      ∃ w, Wrapper.ofOperation reelContext ⟨reelInterface, .method, reelPlay⟩ = .ok w ∧
        w.names.Nodup ∧ NamesApart reelContext reelPlay := by
  obtain ⟨w, hw, hnames⟩ := map_eq_ok_iff.mp names_play
  have hdistinct : w.names.Nodup := by
    rw [hnames]
    decide
  obtain ⟨-, -, hiff⟩ := wrapper_names_distinct_iff described_reel (by decide) (by decide) hw
  exact ⟨described_reel, w, hw, hdistinct, hiff.mp hdistinct⟩

/-- **A valid description with wrappers that declare a name twice.** The parameters of each
method have different names, but their identifiers meet, or they meet what is added. -/
theorem doubled_names_reel :
    Api.ofDocument reelContext.api.toJson = .ok reelContext.api ∧
      reelContext.api.validate (some reelContext.types) = [] ∧
      (∀ op ∈ reelContext.api.operations, (op.method.parameters.map (·.name)).Nodup) ∧
      (Wrapper.ofOperation reelContext ⟨reelInterface, .method, reelMove⟩).map Wrapper.names =
        .ok ["x1", "x1"] ∧
      (Wrapper.ofOperation reelContext ⟨reelInterface, .method, reelCut⟩).map Wrapper.names =
        .ok ["allocs", "crop", "allocs", "_cropPtr"] ∧
      (Wrapper.ofOperation reelContext ⟨reelInterface, .method, reelSave⟩).map Wrapper.names =
        .ok ["out", "_outPtr", "_outPtr", "_rc"] := by
  refine ⟨described_reel, by decide, by decide, ?_, names_cut, ?_⟩
  · decide +kernel
  · decide +kernel

end JavaScript

end Bindery
