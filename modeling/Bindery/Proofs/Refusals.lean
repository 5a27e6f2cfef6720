import Bindery.Command

/-!
# Commands that change nothing

A command finds out all it can before it changes the first file. So there are two ways not to change
anything: to be a command that only looks (`Command.isReadOnly`), and to be refused
(`Failure.isRefusal`). Failures are told apart by their kind, and the order of the steps is what
makes the kind matter: whatever fails once files are changed fails in another way than the steps
before it.

* `isRefusal_eq_false_of_realRun`, `isRefusal_eq_false_of_writeFiles` — what fails while files are
  changed is no refusal;
* `generate_untouched`, `start_untouched` — so a refused command has not come that far.

The main statement is `untouched_of_isReadOnly_or_isRefusal`. Besides the files it is about other
programs, which could change files themselves: none of them is run.
-/

namespace Bindery

/-! ### Looking and refusing -/

/-- Commands that only look. -/
def Command.isReadOnly : Command → Bool
  | validate _ | dumpSchema none | version => true
  | generate _ o => o.dryRun
  | init .. | dumpSchema (some _) => false

/-- **Refusals**: an output directory that goes up, a description that is not loaded, whose schemas
are not found or that is not valid, one that an emitter cannot express, and a new project that has a
bad name or would replace a file. -/
def Failure.isRefusal : Failure → Bool
  | output (.traversal _) | project _ | emit _ | badName _ | wouldOverwrite _ => true
  | output _ | compiler _ | writeSchema .. => false

/-- **Nothing is touched** by a command in a world. -/
structure Untouched (w : World) (run : World → Outcome) : Prop where
  /-- The files are what they were. -/
  files : (run w).files = w.files
  /-- No change is written back. -/
  changes : (run w).changes = []
  /-- No other program is run: the outcome is the same whatever other programs do. -/
  alone : ∀ start, run { w with start } = run w

theorem Untouched.of_eq {w : World} {run : World → Outcome} (o : Outcome)
    (hfiles : o.files = w.files) (hchanges : o.changes = []) (h : ∀ start, run { w with start } = o) : Untouched w run := by
  have hrun : run w = o := h w.start
  refine ⟨?_, ?_, fun start => ?_⟩
  · rw [hrun, hfiles]
  · rw [hrun, hchanges]
  · rw [h start, hrun]

/-! ### Failures that are no refusals -/

theorem isRefusal_eq_false_of_makeRoomFor {path : String} {fs : FileSystem} {e : OutputError}
    (h : (makeRoomFor path fs).2 = some e) : (Failure.output e).isRefusal = false := by
  unfold makeRoomFor at h
  split at h
  · obtain ⟨io, -, rfl⟩ := Option.map_eq_some_iff.mp h
    rfl
  · cases h

theorem isRefusal_eq_false_of_store {a : Artifact} {dir : String} {fs fs' : FileSystem}
    {e : OutputError} (h : a.store dir fs = (fs', .error e)) : (Failure.output e).isRefusal = false := by
  unfold Artifact.store at h
  split at h
  · cases h
  · dsimp only at h
    split at h
    next fs₁ e' hmade =>
      obtain rfl := Except.error.inj (Prod.mk.inj h).2
      exact isRefusal_eq_false_of_makeRoomFor (congrArg Prod.snd hmade)
    next fs₁ hmade =>
      split at h
      · cases h
      · obtain rfl := Except.error.inj (Prod.mk.inj h).2
        rfl

/-- Writing artifacts fails for directories and files. -/
theorem isRefusal_eq_false_of_storeAll {dir : String} {artifacts : List Artifact} {fs : FileSystem}
    {e : OutputError} (h : (storeAll dir artifacts fs).error = some e) :
    (Failure.output e).isRefusal = false := by
  induction artifacts generalizing fs with
  | nil => cases h
  | cons a rest ih =>
    rw [storeAll] at h
    split at h
    next fs₁ e' hstore =>
      obtain rfl := Option.some.inj h
      exact isRefusal_eq_false_of_store hstore
    next fs₁ fate hstore => exact ih h

theorem isRefusal_eq_false_of_writeRun {w : World} {v : Verbosity} {o : GenerateOptions}
    {p : Project} {artifacts : List Artifact} {fs : FileSystem} {f : Failure}
    (h : (writeRun w v o p artifacts fs).failure = some f) : f.isRefusal = false := by
  unfold writeRun at h
  dsimp only at h
  split at h
  next e herror =>
    obtain rfl := Option.some.inj h
    exact isRefusal_eq_false_of_storeAll herror
  next =>
    split at h
    · obtain rfl := Option.some.inj h
      rfl
    · cases h

/-- **What fails in a real run is no refusal.** -/
theorem isRefusal_eq_false_of_realRun {w : World} {v : Verbosity} {o : GenerateOptions}
    {p : Project} {artifacts : List Artifact} {f : Failure}
    (h : (realRun w v o p artifacts).failure = some f) :
    f.isRefusal = false := by
  unfold realRun at h
  split at h
  · dsimp only at h
    split at h
    next fs e hclean =>
      obtain rfl := Option.some.inj h
      -- a directory could not be removed
      unfold cleanOutput at hclean
      split at hclean
      · obtain ⟨io, -, rfl⟩ := Option.map_eq_some_iff.mp (Prod.mk.inj hclean).2
        rfl
      · cases hclean
      · obtain rfl := Option.some.inj (Prod.mk.inj hclean).2
        rfl
    next => exact isRefusal_eq_false_of_writeRun h
  · exact isRefusal_eq_false_of_writeRun h

theorem isRefusal_eq_false_of_writeFiles {files : List (String × String)} {fs : FileSystem}
    {f : Failure} (h : (Starter.writeFiles files fs).2.2 = some f) : f.isRefusal = false := by
  induction files generalizing fs with
  | nil => cases h
  | cons file rest ih =>
    obtain ⟨path, text⟩ := file
    rw [Starter.writeFiles] at h
    split at h
    · obtain rfl := Option.some.inj h
      rfl
    · exact ih h

/-! ### Commands -/

variable {w : World} {v : Verbosity}

theorem validate_untouched (file : String) : Untouched w fun w => validate w v file := by
  refine ⟨?_, ?_, fun _ => rfl⟩
  · unfold validate
    dsimp only
    split <;> rfl
  · unfold validate
    dsimp only
    split <;> rfl

/-- **Generation that is a dry run or is refused.** -/
theorem generate_untouched {file : String} {o : GenerateOptions}
    (h : o.dryRun = true ∨ ∃ f, (generate w v file o).failure = some f ∧ f.isRefusal = true) :
    Untouched w fun w => generate w v file o := by
  cases hdir : checkOutputDir o.output with
  | error e =>
    refine .of_eq { files := w.files, failure := some (.output e) } rfl rfl fun start => ?_
    simp only [generate, hdir]
  | ok u =>
    -- whatever is found out is found out without other programs
    have halone : ∀ start, prepare { w with start } file o = prepare w file o := fun _ => rfl
    cases hprepare : prepare w file o with
    | error f =>
      refine .of_eq (w.refuse v file (v.say ("Generating from " ++ file)) f) rfl rfl fun start => ?_
      simp only [generate, hdir, halone, hprepare, World.refuse]
    | ok made =>
      obtain ⟨p, artifacts⟩ := made
      cases hdry : o.dryRun with
      | true =>
        have hgenerate : ∀ start, generate { w with start } v file o = generate w v file o := by
          intro start
          simp only [generate, hdir, halone, hprepare, hdry, if_true]
          rfl
        refine .of_eq (generate w v file o) ?_ ?_ hgenerate
        · simp only [generate, hdir, hprepare, hdry, if_true]
        · simp only [generate, hdir, hprepare, hdry, if_true]
      | false =>
        -- a run that came this far does not end in a refusal
        obtain hdry' | ⟨f, hfailure, hrefusal⟩ := h
        · rw [hdry] at hdry'
          cases hdry'
        · simp only [generate, hdir, hprepare, hdry, Bool.false_eq_true, if_false] at hfailure
          rw [isRefusal_eq_false_of_realRun hfailure] at hrefusal
          cases hrefusal

/-- **A new project that is refused.** -/
theorem start_untouched {name : String} {language : Language} {dir : String} {f : Failure}
    (hfailure : (start w v name language dir).failure = some f) (hrefusal : f.isRefusal = true) :
    Untouched w fun w => start w v name language dir := by
  have hearly : (start w v name language dir).files = w.files ∧
      (start w v name language dir).changes = [] := by
    unfold start at hfailure ⊢
    split at hfailure
    next hname => exact ⟨by rw [if_pos hname], by rw [if_pos hname]⟩
    next hname =>
      rw [if_neg hname]
      dsimp only at hfailure ⊢
      split at hfailure
      next path hfound => exact ⟨rfl, rfl⟩
      next hfree =>
        -- from here on files are changed
        split at hfailure
        · obtain rfl := Option.some.inj hfailure
          cases hrefusal
        · rw [isRefusal_eq_false_of_writeFiles hfailure] at hrefusal
          cases hrefusal
  exact ⟨hearly.1, hearly.2, fun _ => rfl⟩

/-- **Commands that only look and commands that are refused touch nothing**, whatever the files and
the options are. -/
theorem untouched_of_isReadOnly_or_isRefusal {w : World} {r : Request}
    (h : r.command.isReadOnly = true ∨ ∃ f, (r.run w).failure = some f ∧ f.isRefusal = true) :
    Untouched w r.run := by
  obtain ⟨v, command⟩ := r
  cases command with
  | validate file => exact validate_untouched file
  -- Generating refuses at several stages, which have lemmas of their own.
  | generate file o => exact generate_untouched h
  | init name language dir =>
    obtain hlook | ⟨f, hfailure, hrefusal⟩ := h
    · cases hlook
    · exact start_untouched hfailure hrefusal
  | dumpSchema output =>
    cases output with
    | none => exact ⟨rfl, rfl, fun _ => rfl⟩
    | some path =>
      obtain hlook | ⟨f, hfailure, hrefusal⟩ := h
      · cases hlook
      · -- what fails here fails in writing the file, and that is no refusal
        change (dumpSchema w v (some path)).failure = some f at hfailure
        unfold dumpSchema at hfailure
        dsimp only at hfailure
        split at hfailure
        · obtain rfl := Option.some.inj hfailure
          cases hrefusal
        · cases hfailure
  | version => exact ⟨rfl, rfl, fun _ => rfl⟩

/-- A directory that was generated into, without the description. -/
def leftovers : World where
  files := {
    entries := [(["generated"], .directory), (["generated", "demo.h"], .file "old".toUTF8)] }
  programDir := ""

/-- Generation that is to clean the output directory, and is refused. -/
def cleanGeneration : Request where
  verbosity := {}
  command := .generate "demo.yaml" { clean := true }

theorem untouched_leftovers :
    (cleanGeneration.run leftovers).failure =
        some (.project (.load (.io "demo.yaml" .notFound))) ∧
      Untouched leftovers cleanGeneration.run := by
  have hfailure : (cleanGeneration.run leftovers).failure =
      some (.project (.load (.io "demo.yaml" .notFound))) := rfl
  exact ⟨hfailure, untouched_of_isReadOnly_or_isRefusal (.inr ⟨_, hfailure, rfl⟩)⟩

end Bindery
