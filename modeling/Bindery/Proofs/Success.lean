import Mathlib

/-!
# Computations that succeed

Layouts, codecs and wrappers are computed step by step, and any step can fail. A
computation succeeds exactly when each of its steps does, so a success is taken apart
into the results of the steps. Where only the success counts and not the result, it is a
proposition of its own (`Succeeds`), and what a computation needs is the conjunction of
what its steps need (`succeeds_bind_iff`, `succeeds_mapM_iff`).
-/

namespace Bindery

variable {ε ε' α β : Type}

@[simp] theorem pure_eq_ok_iff {a b : α} : (pure a : Except ε α) = .ok b ↔ a = b :=
  ⟨fun h => Except.ok.inj h, fun h => h ▸ rfl⟩

@[simp] theorem throw_ne_ok {e : ε} {a : α} : (throw e : Except ε α) ≠ .ok a := nofun

theorem exists_ok_of_isOk {x : Except ε α} (h : x.isOk = true) : ∃ a, x = .ok a := by
  cases x with
  | error e => exact absurd h Bool.false_ne_true
  | ok a => exact ⟨a, rfl⟩

/-- Two steps succeed one after the other. -/
theorem bind_eq_ok_iff {x : Except ε α} {f : α → Except ε β} {b : β} :
    (x >>= f) = .ok b ↔ ∃ a, x = .ok a ∧ f a = .ok b := by
  cases x with
  | error e => exact ⟨nofun, fun ⟨a, ha, _⟩ => nomatch ha⟩
  | ok a => exact ⟨fun h => ⟨a, rfl, h⟩, fun ⟨a', ha, h⟩ => Except.ok.inj ha ▸ h⟩

theorem map_eq_ok_iff {x : Except ε α} {f : α → β} {b : β} :
    x.map f = .ok b ↔ ∃ a, x = .ok a ∧ f a = b := by
  cases x with
  | error e => exact ⟨nofun, fun ⟨a, ha, _⟩ => nomatch ha⟩
  | ok a =>
    exact ⟨fun h => ⟨a, rfl, Except.ok.inj h⟩,
      fun ⟨a', ha, h⟩ => congrArg Except.ok ((congrArg f (Except.ok.inj ha)).trans h)⟩

/-- Of two steps the first one fails, or the second one after it. -/
theorem bind_eq_error_iff {x : Except ε α} {f : α → Except ε β} {e : ε} :
    (x >>= f) = .error e ↔ x = .error e ∨ ∃ a, x = .ok a ∧ f a = .error e := by
  cases x with
  | error e' => simp [bind, Except.bind]
  | ok a => simp [bind, Except.bind]

theorem map_eq_error_iff {x : Except ε α} {f : α → β} {e : ε} :
    x.map f = .error e ↔ x = .error e := by
  cases x <;> simp [Except.map]

theorem mapError_eq_ok_iff {x : Except ε α} {f : ε → ε'} {a : α} :
    x.mapError f = .ok a ↔ x = .ok a := by
  cases x with
  | error e => exact ⟨nofun, nofun⟩
  | ok b => exact ⟨fun h => congrArg Except.ok (Except.ok.inj h),
      fun h => congrArg Except.ok (Except.ok.inj h)⟩

theorem mapError_eq_error_iff {x : Except ε α} {f : ε → ε'} {e : ε'} :
    x.mapError f = .error e ↔ ∃ e', x = .error e' ∧ f e' = e := by
  cases x with
  | error e₀ =>
    constructor
    · intro h
      exact ⟨e₀, rfl, Except.error.inj h⟩
    · rintro ⟨e', he', rfl⟩
      rw [Except.error.inj he']
      rfl
  | ok a => exact ⟨nofun, nofun⟩

/-- A step for every member of a list succeeds member by member. -/
theorem mapM_eq_ok_iff {f : α → Except ε β} {xs : List α} {ys : List β} :
    xs.mapM f = .ok ys ↔ List.Forall₂ (fun x y => f x = .ok y) xs ys := by
  induction xs generalizing ys with
  | nil =>
    rw [List.mapM_nil, pure_eq_ok_iff, List.forall₂_nil_left_iff, eq_comm]
  | cons x xs ih =>
    simp only [List.mapM_cons, bind_eq_ok_iff, ih, pure_eq_ok_iff]
    constructor
    · rintro ⟨y, hy, ys, hys, rfl⟩
      exact .cons hy hys
    · intro h
      cases h with
      | cons hy hys => exact ⟨_, hy, _, hys, rfl⟩

/-- A step for every member of a list fails where the step for some member does. -/
theorem exists_of_mapM_eq_error {f : α → Except ε β} {xs : List α} {e : ε}
    (h : xs.mapM f = .error e) : ∃ x ∈ xs, f x = .error e := by
  induction xs with
  | nil => cases h
  | cons x xs ih =>
    rw [List.mapM_cons, bind_eq_error_iff] at h
    rcases h with hx | ⟨y, -, h⟩
    · exact ⟨x, List.mem_cons_self, hx⟩
    · -- what comes behind the two steps cannot fail
      rw [bind_eq_error_iff] at h
      obtain ⟨x', hmem, hx'⟩ := ih (h.resolve_right fun ⟨ys, _, hpure⟩ => nomatch hpure)
      exact ⟨x', List.mem_cons_of_mem _ hmem, hx'⟩

/-! ### Lists that are related member by member -/

variable {γ : Type} {R : α → β → Prop} {S : α → γ → Prop}

/-- Where every member has a partner, there is a list of partners. -/
theorem exists_forall₂ {xs : List α} (h : ∀ x ∈ xs, ∃ y, R x y) :
    ∃ ys, List.Forall₂ R xs ys := by
  induction xs with
  | nil => exact ⟨[], .nil⟩
  | cons x xs ih =>
    obtain ⟨hx, hxs⟩ := List.forall_mem_cons.mp h
    obtain ⟨y, hy⟩ := hx
    obtain ⟨ys, hys⟩ := ih hxs
    exact ⟨y :: ys, .cons hy hys⟩

/-- A list of steps that can each be carried out can be carried out as a whole. -/
theorem exists_mapM_eq_ok {f : α → Except ε β} {xs : List α} (h : ∀ x ∈ xs, ∃ y, f x = .ok y) :
    ∃ ys, xs.mapM f = .ok ys := by
  obtain ⟨ys, hys⟩ := exists_forall₂ h
  exact ⟨ys, mapM_eq_ok_iff.mpr hys⟩

/-- Every member has a partner. -/
theorem exists_mem_of_forall₂ {xs : List α} {ys : List β} (h : List.Forall₂ R xs ys) {x : α}
    (hx : x ∈ xs) : ∃ y ∈ ys, R x y := by
  induction h with
  | nil => exact absurd hx List.not_mem_nil
  | cons hxy _ ih =>
    rcases List.mem_cons.mp hx with rfl | hx
    · exact ⟨_, List.mem_cons_self, hxy⟩
    · obtain ⟨y, hy, hxy⟩ := ih hx
      exact ⟨y, List.mem_cons_of_mem _ hy, hxy⟩

/-- A partner may be looked at knowing that the member is one of the list. -/
theorem forall₂_imp_of_mem {R' : α → β → Prop} {xs : List α} {ys : List β}
    (h : List.Forall₂ R xs ys) (step : ∀ x ∈ xs, ∀ y, R x y → R' x y) : List.Forall₂ R' xs ys := by
  have hmem : List.Forall₂ (fun x y => x ∈ xs ∧ R x y) xs ys :=
    (List.forall₂_and_left xs ys).mpr ⟨fun _ hx => hx, h⟩
  exact hmem.imp fun x y hxy => step x hxy.1 y hxy.2

/-- Partners can be found between two lists. -/
theorem exists_between {T : γ → β → Prop} {xs : List α} {ys : List β}
    (h : List.Forall₂ R xs ys) (step : ∀ x ∈ xs, ∀ y, R x y → ∃ z, S x z ∧ T z y) :
    ∃ zs, List.Forall₂ S xs zs ∧ List.Forall₂ T zs ys := by
  induction h with
  | nil => exact ⟨[], .nil, .nil⟩
  | cons hxy _ ih =>
    obtain ⟨hstep, hrest⟩ := List.forall_mem_cons.mp step
    obtain ⟨z, hxz, hzy⟩ := hstep _ hxy
    obtain ⟨zs, hxzs, hzys⟩ := ih hrest
    exact ⟨z :: zs, .cons hxz hxzs, .cons hzy hzys⟩

/-- Partners of the same members are partners of each other. -/
theorem forall₂_of_common {T : β → γ → Prop} {xs : List α} {ys : List β} {zs : List γ}
    (hR : List.Forall₂ R xs ys) (hS : List.Forall₂ S xs zs)
    (step : ∀ x ∈ xs, ∀ y z, R x y → S x z → T y z) : List.Forall₂ T ys zs := by
  induction hR generalizing zs with
  | nil =>
    cases hS
    exact .nil
  | cons hxy _ ih =>
    obtain ⟨hstep, hrest⟩ := List.forall_mem_cons.mp step
    cases hS with
    | cons hxz hxzs => exact .cons (hstep _ _ hxy hxz) (ih hxzs hrest)

/-- Two partners of a member stand side by side. -/
theorem forall₂_zip_right {xs : List α} {ys : List β} {zs : List γ} (hR : List.Forall₂ R xs ys)
    (hS : List.Forall₂ S xs zs) :
    List.Forall₂ (fun x p => R x p.1 ∧ S x p.2) xs (ys.zip zs) := by
  induction hR generalizing zs with
  | nil => exact .nil
  | cons hxy _ ih =>
    cases hS with
    | cons hxz hxzs => exact .cons ⟨hxy, hxz⟩ (ih hxzs)

/-- Partners with the same image form lists with the same images. -/
theorem map_eq_map_of_forall₂ {f : α → γ} {g : β → γ} {xs : List α} {ys : List β}
    (h : List.Forall₂ R xs ys) (step : ∀ x y, R x y → g y = f x) : ys.map g = xs.map f := by
  induction h with
  | nil => rfl
  | cons hxy _ ih => rw [List.map_cons, List.map_cons, step _ _ hxy, ih]

/-- Leaving out on both sides what is missing on both sides. -/
theorem forall₂_filterMap_id {xs : List (Option α)} {ys : List (Option β)}
    (h : List.Forall₂ (Option.Rel R) xs ys) :
    List.Forall₂ R (xs.filterMap id) (ys.filterMap id) := by
  induction h with
  | nil => exact .nil
  | cons hxy _ ih =>
    cases hxy with
    | none => exact ih
    | some hab => exact .cons hab ih

/-! ### Success without the result -/

/-- The computation gives a result. -/
def Succeeds (x : Except ε α) : Prop := ∃ a, x = .ok a

@[simp] theorem succeeds_ok {a : α} : Succeeds (.ok a : Except ε α) := ⟨a, rfl⟩

@[simp] theorem succeeds_pure {a : α} : Succeeds (pure a : Except ε α) := ⟨a, rfl⟩

@[simp] theorem not_succeeds_error {e : ε} : ¬ Succeeds (.error e : Except ε α) := nofun

@[simp] theorem not_succeeds_throw {e : ε} : ¬ Succeeds (throw e : Except ε α) := nofun

/-- A check succeeds exactly when what it asks for holds. -/
@[simp] theorem succeeds_ite_iff {p : Prop} [Decidable p] {a : α} {e : ε} :
    Succeeds (if p then .ok a else .error e : Except ε α) ↔ p := by
  by_cases h : p <;> simp [h]

@[simp] theorem succeeds_map_iff {x : Except ε α} {f : α → β} :
    Succeeds (x.map f) ↔ Succeeds x := by
  cases x <;> simp [Except.map]

@[simp] theorem succeeds_mapError_iff {x : Except ε α} {f : ε → ε'} :
    Succeeds (x.mapError f) ↔ Succeeds x := by
  cases x <;> simp [Except.mapError]

/-- A last step that cannot fail does not matter. -/
@[simp] theorem succeeds_bind_pure_iff {x : Except ε α} {f : α → β} :
    Succeeds (x >>= fun a => pure (f a)) ↔ Succeeds x := by
  cases x <;> simp [bind, Except.bind]

theorem Succeeds.bind {x : Except ε α} {f : α → Except ε β} (hx : Succeeds x)
    (hf : ∀ a, x = .ok a → Succeeds (f a)) : Succeeds (x >>= f) := by
  obtain ⟨a, rfl⟩ := hx
  exact hf a rfl

/-- **Two steps succeed exactly when both do**, where what the second one needs does not
depend on the result of the first. -/
theorem succeeds_bind_iff {x : Except ε α} {f : α → Except ε β} {P : Prop}
    (h : ∀ a, x = .ok a → (Succeeds (f a) ↔ P)) : Succeeds (x >>= f) ↔ Succeeds x ∧ P := by
  constructor
  · rintro ⟨b, hb⟩
    obtain ⟨a, ha, hb⟩ := bind_eq_ok_iff.mp hb
    exact ⟨⟨a, ha⟩, (h a ha).mp ⟨b, hb⟩⟩
  · rintro ⟨hx, hP⟩
    exact hx.bind fun a ha => (h a ha).mpr hP

/-- A first step that succeeds in any case can be left out. -/
theorem succeeds_bind_iff_right {x : Except ε α} {f : α → Except ε β} {P : Prop}
    (hx : Succeeds x) (h : ∀ a, x = .ok a → (Succeeds (f a) ↔ P)) : Succeeds (x >>= f) ↔ P := by
  rw [succeeds_bind_iff h]
  exact and_iff_right hx

/-- **A step for every member succeeds exactly when each one does.** -/
theorem succeeds_mapM_iff {f : α → Except ε β} {xs : List α} :
    Succeeds (xs.mapM f) ↔ ∀ x ∈ xs, Succeeds (f x) := by
  constructor
  · rintro ⟨ys, hys⟩ x hx
    obtain ⟨y, -, hy⟩ := exists_mem_of_forall₂ (mapM_eq_ok_iff.mp hys) hx
    exact ⟨y, hy⟩
  · exact exists_mapM_eq_ok

end Bindery
