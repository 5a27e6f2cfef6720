import Bindery.Proofs.Schema
import Bindery.Registry

/-!
# What a registry holds

A registry is used step by step, and a step may register one emitter, register all that are built
in, or look something up. The registrations of a run that succeed are collected in a log
(`Registry.log`), and the log is all there is to a registry:

* `Holds` — a registry holds a log when exactly its pairs are found;
* `holds_step` — a step adds to what is held the registrations that succeed in it;
* `holds_after` — hence a run holds what it has registered.

Each name is in the log once, because a registration succeeds only under a new name. From this
follow the answers of every step (`Answered`), and that what is found once is found for good. The
main statement is `first_registration_stands`. It is about every run, also one in which the
emitters that are built in are registered in part, up to a name that is taken.
-/

namespace Bindery.Registry

variable {ε : Type} (make : Emitter → ε)

/-! ### Finding -/

section Find

variable {r : Registry ε} {n : String} {e : ε}

theorem mem_names_iff : n ∈ r.names ↔ ∃ e, r.get? n = some e := by
  unfold names get? Keyed.names
  simp only [Keyed.get?_eq_some_iff, List.mem_map, Prod.exists, exists_and_right, exists_eq_right]

theorem contains_eq : r.contains n = decide (n ∈ r.names) := by
  rw [Bool.eq_iff_iff, decide_eq_true_iff, mem_names_iff, contains, Option.isSome_iff_exists]

theorem get?_eq_none_iff : r.get? n = none ↔ n ∉ r.names := by
  rw [mem_names_iff, Option.eq_none_iff_forall_ne_some, not_exists]

/-- **The names ascend strictly**, so no name is listed twice. -/
theorem pairwise_names (r : Registry ε) : r.names.Pairwise (· < ·) :=
  List.pairwise_map.mpr r.table.ascending

theorem length_names (r : Registry ε) : r.names.length = r.size := List.length_map ..

end Find

/-! ### Holding a log -/

/-- **A registry holds a log**: exactly its pairs are found. -/
def Holds (r : Registry ε) (log : List (String × ε)) : Prop :=
  ∀ n e, r.get? n = some e ↔ (n, e) ∈ log

theorem holds_entries (r : Registry ε) : r.Holds r.table.entries :=
  fun _ _ => Keyed.get?_eq_some_iff

theorem holds_empty : Holds (empty : Registry ε) [] := by
  intro n e
  exact ⟨nofun, fun h => absurd h List.not_mem_nil⟩

section Holds

variable {r : Registry ε} {log : List (String × ε)} (h : r.Holds log)

include h

theorem Holds.mem_names_iff {n : String} : n ∈ r.names ↔ n ∈ log.map Prod.fst := by
  rw [Registry.mem_names_iff, List.mem_map]
  constructor
  · rintro ⟨e, he⟩
    exact ⟨(n, e), (h n e).mp he, rfl⟩
  · rintro ⟨⟨_, e⟩, he, rfl⟩
    exact ⟨e, (h _ e).mpr he⟩

/-- One more pair under a new name. -/
theorem Holds.insert {n : String} {e : ε} (hn : n ∉ r.names) :
    Holds ⟨r.table.insert n e⟩ (log ++ [(n, e)]) := by
  intro n' e'
  have hfind : (⟨r.table.insert n e⟩ : Registry ε).get? n' =
      if n = n' then some e else r.get? n' :=
    lookupEntry_insertEntry n' n e r.table.entries
  -- The new name answers with the new emitter, and every other one as before.
  rw [hfind, List.mem_append, List.mem_singleton, Prod.mk.injEq]
  by_cases heq : n = n'
  · subst heq
    have hnone : (n, e') ∉ log := by
      rw [← h n e', get?_eq_none_iff.mpr hn]
      exact nofun
    rw [if_pos rfl, Option.some.injEq]
    exact ⟨fun he => .inr ⟨rfl, he.symm⟩, fun he => (he.resolve_left hnone).2.symm⟩
  · rw [if_neg heq, h n' e']
    exact ⟨.inl, fun he => he.resolve_right fun hnew => heq hnew.1.symm⟩

end Holds

/-! ### Registering -/

section Register

variable {r : Registry ε} {log : List (String × ε)}

/-- A registration is refused exactly when the name is taken. -/
theorem register?_of_mem {n : String} (e : ε) (hn : n ∈ r.names) : r.register? n e = none := by
  rw [register?, contains_eq, decide_eq_true hn, if_pos rfl]

theorem register?_of_not_mem {n : String} (e : ε) (hn : n ∉ r.names) :
    r.register? n e = some ⟨r.table.insert n e⟩ := by
  rw [register?, contains_eq, decide_eq_false hn, if_neg Bool.false_ne_true]

/-- What is taken from the beginning of a list is all of it, or it ends before a member that
fails. -/
theorem takeWhile_cases {α : Type} (p : α → Bool) (xs : List α) :
    ((∀ x ∈ xs, p x = true) ∧ xs.takeWhile p = xs) ∨
      ∃ before x rest, xs = before ++ x :: rest ∧ (∀ y ∈ before, p y = true) ∧ p x = false ∧
        xs.takeWhile p = before := by
  induction xs with
  | nil => exact .inl ⟨nofun, rfl⟩
  | cons x xs ih =>
    cases hx : p x with
    | false => exact .inr ⟨[], x, xs, rfl, nofun, hx, List.takeWhile_cons_of_neg (by simp [hx])⟩
    | true =>
      rw [List.takeWhile_cons_of_pos hx, List.forall_mem_cons]
      obtain ⟨hall, hcut⟩ | ⟨before, y, rest, rfl, hbefore, hy, hcut⟩ := ih
      · exact .inl ⟨⟨hx, hall⟩, congrArg (x :: ·) hcut⟩
      · exact .inr ⟨x :: before, y, rest, rfl, List.forall_mem_cons.mpr ⟨hx, hbefore⟩, hy,
          congrArg (x :: ·) hcut⟩

/-- Where two tests agree on every member they take the same beginning. -/
theorem takeWhile_congr {α : Type} {p q : α → Bool} {xs : List α} (h : ∀ x ∈ xs, p x = q x) :
    xs.takeWhile p = xs.takeWhile q := by
  induction xs with
  | nil => rfl
  | cons x xs ih =>
    obtain ⟨hx, hxs⟩ := List.forall_mem_cons.mp h
    rw [List.takeWhile_cons, List.takeWhile_cons, hx, ih hxs]

/-- **Several registrations** under different names succeed up to the first name that is taken. -/
theorem holds_registerEach {bs : List (String × ε)} (h : r.Holds log)
    (distinct : (bs.map Prod.fst).Nodup) :
    (r.registerEach bs).1.Holds (log ++ bs.takeWhile fun b => b.1 ∉ r.names) ∧
      ((r.registerEach bs).2 = true ↔ ∀ b ∈ bs, b.1 ∉ r.names) := by
  induction bs generalizing r log with
  | nil => exact ⟨(List.append_nil log).symm ▸ h, iff_of_true rfl nofun⟩
  | cons b rest ih =>
    obtain ⟨n, e⟩ := b
    obtain ⟨hfirst, hrest⟩ := List.nodup_cons.mp distinct
    rw [registerEach, List.takeWhile_cons, List.forall_mem_cons]
    by_cases hn : n ∈ r.names
    · rw [register?_of_mem e hn, if_neg (by simpa using hn)]
      exact ⟨(List.append_nil log).symm ▸ h, iff_of_false Bool.false_ne_true fun hall => hall.1 hn⟩
    · rw [register?_of_not_mem e hn, if_pos (by simpa using hn)]
      have hone := h.insert hn (e := e)
      -- the names of the others are as new as they were
      have hsame : ∀ b ∈ rest,
          (b.1 ∉ Registry.names ⟨r.table.insert n e⟩ ↔ b.1 ∉ r.names) := by
        intro b hb
        have hne : b.1 ≠ n := by
          intro heq
          exact hfirst (List.mem_map.mpr ⟨b, hb, heq⟩)
        rw [hone.mem_names_iff, List.map_append, List.mem_append, ← h.mem_names_iff]
        simp [hne]
      obtain ⟨hholds, hall⟩ := ih hone hrest
      rw [takeWhile_congr fun b hb => decide_eq_decide.mpr (hsame b hb), List.append_assoc,
        List.singleton_append] at hholds
      rw [forall₂_congr hsame] at hall
      exact ⟨hholds, hall.trans (and_iff_right hn).symm⟩

end Register

/-! ### Steps -/

theorem nodup_builtins : ((builtins make).map Prod.fst).Nodup := by
  have hnames : (builtins make).map Prod.fst = Emitter.all.map Emitter.name := by
    rw [builtins, List.map_map]
    rfl
  rw [hnames]
  decide

/-- **The registrations that succeed in a step.** For a single one the answer tells; those that are
built in succeed up to the first name that is taken. -/
def successes (r : Registry ε) (s : Step ε) : List (String × ε) :=
  match s, (r.step make s).2 with
  | .register n e, .done => [(n, e)]
  | .tryRegister n e, .added true => [(n, e)]
  | .registerAll, _ => (builtins make).takeWhile fun b => b.1 ∉ r.names
  | _, _ => []

/-- **What a step answers**, by the names that are registered before. -/
def Answered (r : Registry ε) (s : Step ε) (a : Answer ε) : Prop :=
  match s with
  | .register n _ => a = if n ∈ r.names then .panicked else .done
  | .tryRegister n _ => a = .added (decide (n ∉ r.names))
  | .registerAll =>
    ((∀ b ∈ builtins make, b.1 ∉ r.names) ∧ a = .done ∧ successes make r s = builtins make) ∨
      ∃ before b rest, builtins make = before ++ b :: rest ∧ (∀ c ∈ before, c.1 ∉ r.names) ∧
        b.1 ∈ r.names ∧ a = .panicked ∧ successes make r s = before
  | .get n => a = .found (r.get? n)
  | .contains n => a = .known (decide (n ∈ r.names))

theorem step_registerAll (r : Registry ε) :
    r.step make .registerAll =
      ((r.registerEach (builtins make)).1,
        if (r.registerEach (builtins make)).2 then .done else .panicked) := by
  rw [step]
  obtain ⟨r', all⟩ := r.registerEach (builtins make)
  cases all <;> rfl

theorem answered_step (r : Registry ε) (s : Step ε) : Answered make r s (r.step make s).2 := by
  cases s with
  | register n e =>
    rw [Answered, step]
    by_cases hn : n ∈ r.names
    · rw [register?_of_mem e hn, if_pos hn]
    · rw [register?_of_not_mem e hn, if_neg hn]
  | tryRegister n e =>
    rw [Answered, step]
    by_cases hn : n ∈ r.names
    · rw [register?_of_mem e hn, decide_eq_false (not_not.mpr hn)]
    · rw [register?_of_not_mem e hn, decide_eq_true hn]
  | registerAll =>
    have hflag := (holds_registerEach (holds_entries r) (nodup_builtins make)).2
    rw [Answered, step_registerAll]
    -- The built-in emitters are tried in order, up to the first whose name is taken.
    obtain ⟨hall, hcut⟩ | ⟨before, b, rest, hsplit, hbefore, hb, hcut⟩ :=
      takeWhile_cases (fun b : String × ε => decide (b.1 ∉ r.names)) (builtins make)
    · have hnew : ∀ b ∈ builtins make, b.1 ∉ r.names := fun b hb => of_decide_eq_true (hall b hb)
      exact .inl ⟨hnew, if_pos (hflag.mpr hnew), hcut⟩
    · have htaken : b.1 ∈ r.names := not_not.mp (of_decide_eq_false hb)
      have hstop : ¬ (r.registerEach (builtins make)).2 = true := by
        rw [hflag, hsplit]
        exact fun hnew => hnew b (List.mem_append_right _ List.mem_cons_self) htaken
      exact .inr ⟨before, b, rest, hsplit, fun c hc => of_decide_eq_true (hbefore c hc), htaken,
        if_neg hstop, hcut⟩
  | get n => rfl
  | contains n => exact congrArg Answer.known contains_eq

/-- **A step adds what succeeds in it** to what is held. -/
theorem holds_step {r : Registry ε} {log : List (String × ε)} (h : r.Holds log) (s : Step ε) :
    (r.step make s).1.Holds (log ++ successes make r s) := by
  -- A registration is noted when it succeeds, and looking something up is not.
  cases s with
  | register n e =>
    by_cases hn : n ∈ r.names
    · simp only [successes, step, register?_of_mem e hn, List.append_nil]
      exact h
    · simp only [successes, step, register?_of_not_mem e hn]
      exact h.insert hn
  | tryRegister n e =>
    by_cases hn : n ∈ r.names
    · simp only [successes, step, register?_of_mem e hn, List.append_nil]
      exact h
    · simp only [successes, step, register?_of_not_mem e hn]
      exact h.insert hn
  | registerAll =>
    rw [step_registerAll]
    exact (holds_registerEach h (nodup_builtins make)).1
  | get n | contains n => exact (List.append_nil log).symm ▸ h

/-! ### Runs -/

/-- The registry after several steps. -/
def after (r : Registry ε) (steps : List (Step ε)) : Registry ε :=
  steps.foldl (fun r s => (r.step make s).1) r

/-- The registrations that succeed in several steps, in order. -/
def log (r : Registry ε) : List (Step ε) → List (String × ε)
  | [] => []
  | s :: rest => successes make r s ++ log (r.step make s).1 rest

/-- **A run holds what it has registered.** -/
theorem holds_after {r : Registry ε} {earlier : List (String × ε)} (h : r.Holds earlier)
    (steps : List (Step ε)) : (after make r steps).Holds (earlier ++ log make r steps) := by
  induction steps generalizing r earlier with
  | nil => exact (List.append_nil earlier).symm ▸ h
  | cons s rest ih =>
    have hrest := ih (holds_step make h s)
    rwa [List.append_assoc] at hrest

theorem log_append (r : Registry ε) (xs ys : List (Step ε)) :
    log make r (xs ++ ys) = log make r xs ++ log make (after make r xs) ys := by
  induction xs generalizing r with
  | nil => rfl
  | cons s rest ih =>
    rw [List.cons_append, log, log, ih, List.append_assoc]
    rfl

/-- What is found once is found after any further steps. -/
theorem get?_after {r : Registry ε} {n : String} {e : ε} (h : r.get? n = some e)
    (steps : List (Step ε)) : (after make r steps).get? n = some e := by
  rw [holds_after make (holds_entries r) steps n e]
  exact List.mem_append_left _ ((holds_entries r n e).mp h)

/-- **The first registration of a name stands.** After any steps on a new registry and one step
more, the names are those of the registrations that have succeeded, each found with what was
registered under it, now and after any later steps; the answer is the one that the names before
call for; the names ascend strictly, and looking something up changes nothing. -/
theorem first_registration_stands (steps : List (Step ε)) (s : Step ε) :
    let before := after make empty steps
    let now := (before.step make s).1
    (∀ n, n ∈ now.names ↔ ∃ e, (n, e) ∈ log make empty (steps ++ [s])) ∧
      (∀ n e, now.get? n = some e ↔ (n, e) ∈ log make empty (steps ++ [s])) ∧
      Answered make before s (before.step make s).2 ∧
      (∀ n e, now.get? n = some e → ∀ later, (after make now later).get? n = some e) ∧
      now.names.Pairwise (· < ·) ∧ now.names.length = now.size ∧
      ∀ n, s = .get n ∨ s = .contains n → now = before := by
  intro before now
  have hholds : now.Holds (log make empty (steps ++ [s])) := by
    have hrun := holds_step make (holds_after make holds_empty steps) s
    rw [log_append, log, log, List.append_nil]
    exact hrun
  refine ⟨fun n => ?_, hholds, answered_step make before s, fun n e he => get?_after make he,
    pairwise_names now, length_names now, ?_⟩
  · rw [mem_names_iff]
    exact exists_congr fun e => hholds n e
  · rintro n (rfl | rfl) <;> rfl

end Bindery.Registry
