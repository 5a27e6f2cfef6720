import Bindery.Plan
import Bindery.Proofs.Registrations
import Bindery.Proofs.Text
import Mathlib.Data.List.Induction
import Mathlib.Data.List.Sort

/-!
# Plans

What to generate is put together from four parts and then freed of repetitions, and so is the
list of the languages that the schema compiler is asked for. Only the bindings of the targets
can be repeated: the other parts have no members in common with them or with each other. So
leaving out repetitions changes the bindings alone, and the front-ends of the schema compiler,
which go with them one by one, in the same way:

* `FirstAppearances` — the members of a list in the order in which they first appear, which
  `Text.distinct` computes (`firstAppearances_distinct`) and which is all there is
  (`FirstAppearances.unique`);
* `distinct_append`, `distinct_map` — leaving out repetitions goes through a list whose parts
  have nothing in common, and through a function that keeps members apart;
* `exists_bindings_plan` — the exact plan, and the exact list of front-ends.
-/

namespace Bindery

/-! ### Order of first appearance -/

section Distinct

variable {α β : Type} [BEq α] [BEq β] {xs ys zs : List α}

/-- **The members of a list, each once, in the order in which they first appear.** -/
structure FirstAppearances (xs ys : List α) : Prop where
  mem_iff : ∀ x, x ∈ ys ↔ x ∈ xs
  order : ys.Pairwise fun x y => xs.idxOf x < xs.idxOf y

theorem FirstAppearances.nodup (h : FirstAppearances xs ys) : ys.Nodup :=
  h.order.imp fun hlt heq => absurd (heq ▸ hlt) (Nat.lt_irrefl _)

/-- There is only one such list. -/
theorem FirstAppearances.unique (hys : FirstAppearances xs ys) (hzs : FirstAppearances xs zs) :
    ys = zs := by
  have hperm : ys.Perm zs :=
    (List.perm_ext_iff_of_nodup hys.nodup hzs.nodup).mpr fun x =>
      (hys.mem_iff x).trans (hzs.mem_iff x).symm
  refine hperm.eq_of_pairwise (fun x y _ _ hxy hyx => ?_) hys.order hzs.order
  exact absurd (Nat.lt_trans hxy hyx) (Nat.lt_irrefl _)

variable [LawfulBEq α] [LawfulBEq β]

namespace Text

theorem distinct_concat (xs : List α) (x : α) :
    distinct (xs ++ [x]) = if x ∈ xs then distinct xs else distinct xs ++ [x] := by
  have hstep : distinct (xs ++ [x]) =
      if (distinct xs).contains x then distinct xs else distinct xs ++ [x] := by
    rw [distinct, List.foldl_append]
    rfl
  rw [hstep]
  simp only [List.contains_iff_mem, mem_distinct_iff]

end Text

/-- **Leaving out repetitions keeps the order of first appearance.** -/
theorem firstAppearances_distinct (xs : List α) : FirstAppearances xs (Text.distinct xs) := by
  refine ⟨fun x => Text.mem_distinct_iff, ?_⟩
  induction xs using List.reverseRecOn with
  | nil => exact .nil
  | append_singleton xs x ih =>
    -- what was there keeps its place, and what comes new comes behind it
    have hkept : (Text.distinct xs).Pairwise fun y z =>
        (xs ++ [x]).idxOf y < (xs ++ [x]).idxOf z := by
      refine ih.imp_of_mem fun {y z} hy hz hlt => ?_
      rw [List.idxOf_append_of_mem (Text.mem_distinct_iff.mp hy),
        List.idxOf_append_of_mem (Text.mem_distinct_iff.mp hz)]
      exact hlt
    rw [Text.distinct_concat]
    split
    · exact hkept
    · next hnew =>
      refine List.pairwise_append.mpr ⟨hkept, List.pairwise_singleton _ _, fun y hy z hz => ?_⟩
      obtain rfl := List.mem_singleton.mp hz
      have hbefore := List.idxOf_lt_length_of_mem (Text.mem_distinct_iff.mp hy)
      rw [List.idxOf_append_of_mem (Text.mem_distinct_iff.mp hy), List.idxOf_append_of_notMem hnew]
      omega

namespace Text

/-- **Repetitions are left out part by part** where the second part has none and shares no
member with the first. -/
theorem distinct_append (hys : ys.Nodup) (hapart : ∀ y ∈ ys, y ∉ xs) :
    distinct (xs ++ ys) = distinct xs ++ ys := by
  induction ys using List.reverseRecOn with
  | nil => rw [List.append_nil, List.append_nil]
  | append_singleton ys y ih =>
    obtain ⟨hys, -, hlast⟩ := List.nodup_append.mp hys
    have hnew : y ∉ xs ++ ys := by
      rw [List.mem_append, not_or]
      exact ⟨hapart y (by simp), fun hy => hlast y hy y (List.mem_singleton_self y) rfl⟩
    rw [← List.append_assoc, distinct_concat, if_neg hnew,
      ih hys fun z hz => hapart z (List.mem_append_left _ hz), List.append_assoc]

/-- A first member that does not come again stays in front. -/
theorem distinct_cons {x : α} (hx : x ∉ xs) : distinct (x :: xs) = x :: distinct xs := by
  induction xs using List.reverseRecOn with
  | nil => rfl
  | append_singleton xs y ih =>
    rw [List.mem_append, List.mem_singleton, not_or] at hx
    have hy : y ∈ x :: xs ↔ y ∈ xs := List.mem_cons.trans (or_iff_right (Ne.symm hx.2))
    rw [← List.cons_append, distinct_concat, distinct_concat, ih hx.1]
    simp only [hy]
    split <;> rfl

/-- **Repetitions of images** are those of the members, where distinct members have distinct
images. -/
theorem distinct_map {f : α → β} (hf : ∀ x ∈ xs, ∀ y ∈ xs, f x = f y → x = y) :
    distinct (xs.map f) = (distinct xs).map f := by
  induction xs using List.reverseRecOn with
  | nil => rfl
  -- From behind, as a new element is looked up among those before it.
  | append_singleton xs x ih =>
    have hmem : f x ∈ xs.map f ↔ x ∈ xs := by
      refine ⟨fun h => ?_, List.mem_map_of_mem⟩
      obtain ⟨y, hy, heq⟩ := List.mem_map.mp h
      rw [← hf y (List.mem_append_left _ hy) x (by simp) heq]
      exact hy
    rw [List.map_append, List.map_singleton, distinct_concat, distinct_concat,
      ih fun y hy z hz => hf y (List.mem_append_left _ hy) z (List.mem_append_left _ hz)]
    simp only [hmem]
    split
    · rfl
    · rw [List.map_append, List.map_singleton]

end Text

end Distinct

/-! ### Emitters -/

theorem Emitter.mem_all (e : Emitter) : e ∈ Emitter.all := by
  cases e <;> decide

theorem Emitter.name_injective : Function.Injective Emitter.name := by
  intro e f h
  exact List.inj_on_of_nodup_map (by decide) (Emitter.mem_all e) (Emitter.mem_all f) h

/-- **Every emitter is registered under its name.** -/
theorem Registry.get?_standard (e : Emitter) : Registry.standard.get? e.name = some e := by
  have hnone : Holds (empty : Registry) [] := holds_empty
  have hnames : ((builtins id).map Prod.fst).Nodup := nodup_builtins id
  obtain ⟨hholds, -⟩ := holds_registerEach hnone hnames
  have hall : ((builtins id).takeWhile fun b => b.1 ∉ (empty : Registry).names) = builtins id :=
    List.takeWhile_eq_self_iff.mpr fun _ _ => rfl
  rw [List.nil_append, hall] at hholds
  exact (hholds e.name e).mpr (List.mem_map.mpr ⟨e, Emitter.mem_all e, rfl⟩)

/-- The bindings. -/
def bindingEmitters : List Emitter := [.kotlin, .swift, .javaScript]

theorem mem_bindingEmitters {ts : List Target} :
    ∀ e ∈ ts.filterMap Target.binding?, e ∈ bindingEmitters := by
  intro e he
  obtain ⟨t, -, ht⟩ := List.mem_filterMap.mp he
  cases t <;> cases ht <;> decide

/-- **The header, the bindings, the files of the language, and the exports of Go** where it
meets the web. -/
theorem plan_eq (ts : List Target) (l : Language) :
    plan ts l = .cHeader :: Text.distinct (ts.filterMap Target.binding?) ++ l.emitters ++
      if l = .go ∧ .web ∈ ts then [.goWasm] else [] := by
  have hexports : (if (decide (l = .go) && ts.contains .web) = true then [Emitter.goWasm] else []) =
      if l = .go ∧ .web ∈ ts then [.goWasm] else [] := by
    simp only [Bool.and_eq_true, decide_eq_true_eq, List.contains_iff_mem]
  rw [plan, hexports, List.append_assoc, List.append_assoc, ← List.append_assoc [Emitter.cHeader]]
  set fixed := l.emitters ++ if l = .go ∧ .web ∈ ts then [Emitter.goWasm] else [] with hfixed
  -- the fixed parts are checked language by language
  have hnodup : fixed.Nodup := by
    rw [hfixed]
    cases l <;> split <;> decide
  have hheader : Emitter.cHeader ∉ ts.filterMap Target.binding? := fun h =>
    absurd (mem_bindingEmitters _ h) (by decide)
  have hother : ∀ e ∈ fixed, e ∉ Emitter.cHeader :: bindingEmitters := by
    rw [hfixed]
    cases l <;> split <;> decide
  have hapart : ∀ e ∈ fixed, e ∉ [Emitter.cHeader] ++ ts.filterMap Target.binding? := by
    intro e he hmem
    refine hother e he (List.mem_cons.mpr ?_)
    exact (List.mem_cons.mp hmem).imp_right (mem_bindingEmitters e)
  rw [Text.distinct_append hnodup hapart, List.singleton_append, Text.distinct_cons hheader,
    List.append_assoc]

/-! ### Front-ends of the schema compiler -/

/-- **The front-end that goes with a binding**: its flag and its directory. -/
def Emitter.frontEnd? : Emitter → Option SchemaLanguage
  | .kotlin => some ⟨"--kotlin", "flatbuffers/kotlin"⟩
  | .swift => some ⟨"--swift", "flatbuffers/swift"⟩
  | .javaScript => some ⟨"--ts", "flatbuffers/ts"⟩
  | _ => none

namespace SchemaLanguage

/-- **The front-ends go with the bindings one by one**, repetitions left out or not. -/
theorem map_frontEnd? (ts : List Target) :
    (Text.distinct (ts.filterMap Target.binding?)).map Emitter.frontEnd? =
      (Text.distinct (ts.filterMap ofTarget?)).map some := by
  have hboth : (ts.filterMap Target.binding?).map Emitter.frontEnd? =
      (ts.filterMap ofTarget?).map some := by
    rw [List.map_filterMap, List.map_filterMap]
    refine List.filterMap_congr fun t _ => ?_
    cases t <;> rfl
  have hinj : ∀ e ∈ bindingEmitters, ∀ f ∈ bindingEmitters,
      e.frontEnd? = f.frontEnd? → e = f := by
    decide
  rw [← Text.distinct_map fun e he f hf =>
      hinj e (mem_bindingEmitters e he) f (mem_bindingEmitters f hf), hboth,
    Text.distinct_map fun _ _ _ _ => Option.some.inj]

/-- The front-end of the language comes behind those of the bindings, which it is none of. -/
theorem needed_eq (ts : List Target) (l : Language) :
    needed ts l = Text.distinct (ts.filterMap ofTarget?) ++ (ofLanguage? l).toList := by
  refine Text.distinct_append ?_ fun s hs hmem => ?_
  · cases ofLanguage? l with
    | none => exact List.nodup_nil
    | some s => exact List.nodup_singleton s
  · obtain ⟨t, -, ht⟩ := List.mem_filterMap.mp hmem
    rw [Option.mem_toList] at hs
    cases t <;> cases ht <;> cases l <;> exact absurd hs (by decide)

/-- Flag and directory are made of one name. -/
theorem exists_eq_named {ts : List Target} {l : Language} {s : SchemaLanguage}
    (hs : s ∈ needed ts l) : ∃ name, s = named name := by
  rw [needed, Text.mem_distinct_iff, List.mem_append, List.mem_filterMap, Option.mem_toList] at hs
  rcases hs with ⟨t, -, ht⟩ | hl
  · cases t <;> cases ht <;> exact ⟨_, rfl⟩
  · cases l <;> cases hl <;> exact ⟨_, rfl⟩

/-- **The needed languages have distinct flags and distinct directories.** -/
theorem nodup_needed (ts : List Target) (l : Language) :
    ((needed ts l).map (·.flag)).Nodup ∧ ((needed ts l).map (·.outDir)).Nodup := by
  have hnodup : (needed ts l).Nodup := Text.nodup_distinct _
  refine ⟨(List.nodup_map_iff_inj_on hnodup).mpr ?_, (List.nodup_map_iff_inj_on hnodup).mpr ?_⟩
  all_goals
    intro s hs s' hs' heq
    obtain ⟨name, rfl⟩ := exists_eq_named hs
    obtain ⟨name', rfl⟩ := exists_eq_named hs'
    rw [(String.append_right_inj _).mp heq]

end SchemaLanguage

/-- **The exact plan** for any targets and any language: the header, then the bindings in the
order in which the targets ask for them first, then what the language brings. All of it is
registered and nothing is repeated. The schema compiler is asked for the front-ends of the same
bindings, in the same order, and for that of the language. -/
theorem exists_bindings_plan (ts : List Target) (l : Language) :
    ∃ bindings fronts,
      FirstAppearances (ts.filterMap Target.binding?) bindings ∧
      (plan ts l = .cHeader :: bindings ++ l.emitters ++
        if l = .go ∧ .web ∈ ts then [.goWasm] else []) ∧
      ((plan ts l).map Emitter.name).Nodup ∧
      unregistered Registry.standard (plan ts l) = [] ∧
      bindings.map Emitter.frontEnd? = fronts.map some ∧
      SchemaLanguage.needed ts l = fronts ++ (SchemaLanguage.ofLanguage? l).toList ∧
      ((SchemaLanguage.needed ts l).map (·.flag)).Nodup ∧
      ((SchemaLanguage.needed ts l).map (·.outDir)).Nodup := by
  have hnames : ((plan ts l).map Emitter.name).Nodup :=
    (Text.nodup_distinct _).map Emitter.name_injective
  have hregistered : unregistered Registry.standard (plan ts l) = [] := by
    rw [unregistered, List.filter_eq_nil_iff, List.forall_mem_map]
    intro e _
    rw [Registry.contains, Registry.get?_standard]
    exact Bool.false_ne_true
  exact ⟨_, _, firstAppearances_distinct _, plan_eq ts l, hnames, hregistered,
    SchemaLanguage.map_frontEnd? ts, SchemaLanguage.needed_eq ts l, SchemaLanguage.nodup_needed ts l⟩

end Bindery
