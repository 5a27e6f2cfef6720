import Bindery.Load
import Bindery.Proofs.Success

/-!
# Documents that are descriptions

Checking a shape looks for the first violation, and it walks over shapes and documents at
once. Whether there is a violation at all is a question that can be answered along the
shape alone:

* `isOk_check` — the check passes exactly when the document fits the shape (`Shape.fits`);
* `ofDocument_eq_ok_iff` — a document is a description exactly when it fits and can be
  taken apart.
-/

namespace Bindery

namespace Shape

/-! ### Fitting a shape -/

mutual

/-- Whether a document has no violation of a shape. -/
def fits : Shape → Json → Bool
  | text pattern, .str s => pattern.all (·.accepts s)
  | word words, .str s => words.contains s
  | list item nonempty distinct, .arr items =>
    items.all (fits item) && !(nonempty && items.isEmpty) && !(distinct && repeatsText items)
  | object properties required, .obj entries =>
    entries.all (fun e => fitsProperty properties e.1 e.2) &&
      required.all fun k => (lookupEntry k entries).isSome
  | _, _ => false

/-- Whether a value may stand under a key. -/
def fitsProperty : List (String × Shape) → String → Json → Bool
  | [], _, _ => false
  | (k, shape) :: rest, key, value => if k = key then fits shape value else fitsProperty rest key value

end

theorem isOk_mapError {ε ε' α : Type} (x : Except ε α) (f : ε → ε') :
    (x.mapError f).isOk = x.isOk := by
  cases x <;> rfl

/-- Two checks pass when both do. -/
theorem isOk_bind {ε : Type} (x y : Except ε Unit) :
    (x >>= fun _ => y).isOk = (x.isOk && y.isOk) := by
  cases x <;> rfl

theorem isOk_here_or {b : Bool} {r : Reason} {x : Except Violation Unit} :
    (if b then here r else x).isOk = (!b && x.isOk) := by
  cases b <;> rfl

theorem isOk_checkRequired (entries : List (String × Json)) (required : List String) :
    (checkRequired entries required).isOk =
      required.all fun k => (lookupEntry k entries).isSome := by
  rw [checkRequired]
  split
  -- The check stops at the first key that is missing.
  next k hk =>
    have hmissing : (lookupEntry k entries).isSome = false := by
      simpa using List.find?_some hk
    symm
    rw [show (here (.missingProperty k)).isOk = false from rfl, List.all_eq_false]
    exact ⟨k, List.mem_of_find?_eq_some hk, by simp [hmissing]⟩
  next hnone =>
    symm
    rw [show (Except.ok () : Except Violation Unit).isOk = true from rfl, List.all_eq_true]
    intro k hk
    simpa [Option.isSome_iff_ne_none] using List.find?_eq_none.mp hnone k hk

/-- The items of a list, when one item is understood. -/
theorem isOk_checkItems {item : Shape} (hitem : ∀ v, (item.check v).isOk = item.fits v)
    (index : Nat) (items : List Json) :
    (checkItems item index items).isOk = items.all item.fits := by
  induction items generalizing index with
  | nil => rw [checkItems]; rfl
  | cons v rest ih => rw [checkItems, isOk_bind, isOk_mapError, hitem, ih, List.all_cons]

/-- The entries of an object, when one entry is understood. -/
theorem isOk_checkEntries {properties : List (String × Shape)}
    (hproperty : ∀ key v, (checkProperty properties key v).isOk = fitsProperty properties key v)
    (entries : List (String × Json)) :
    (checkEntries properties entries).isOk =
      entries.all fun e => fitsProperty properties e.1 e.2 := by
  induction entries with
  | nil => rw [checkEntries]; rfl
  | cons e rest ih => rw [checkEntries, isOk_bind, hproperty, ih, List.all_cons]

mutual

/-- **The check passes exactly when the document fits.** -/
theorem isOk_check : ∀ (shape : Shape) (value : Json),
    (shape.check value).isOk = shape.fits value
  | text pattern, value => by
    cases value with
    | str s =>
      cases pattern with
      | none => rw [check, fits]; rfl
      | some p =>
        rw [check, fits, Option.all_some]
        cases p.accepts s <;> rfl
    | null | bool _ | int _ | float _ | arr _ | obj _ => rw [check]; rfl; nofun
  | word words, value => by
    cases value with
    | str s =>
      rw [check, fits]
      cases words.contains s <;> rfl
    | null | bool _ | int _ | float _ | arr _ | obj _ => rw [check]; rfl; nofun
  | list item nonempty distinct, value => by
    cases value with
    | arr items =>
      rw [check, fits, isOk_bind, isOk_checkItems (isOk_check item), isOk_here_or, isOk_here_or,
        Bool.and_assoc]
      simp [Except.isOk, Except.toBool]
    | null | bool _ | int _ | float _ | str _ | obj _ => rw [check]; rfl; nofun
  | object properties required, value => by
    cases value with
    | obj entries =>
      rw [check, fits, isOk_bind, isOk_checkEntries (isOk_checkProperty properties),
        isOk_checkRequired]
    | null | bool _ | int _ | float _ | str _ | arr _ => rw [check]; rfl; nofun

theorem isOk_checkProperty : ∀ (properties : List (String × Shape)) (key : String) (value : Json),
    (checkProperty properties key value).isOk = fitsProperty properties key value
  | [], key, value => by rw [checkProperty]; rfl
  | (k, shape) :: rest, key, value => by
    rw [checkProperty, fitsProperty]
    split
    · rw [isOk_mapError, isOk_check shape value]
    · exact isOk_checkProperty rest key value

end

end Shape

/-- **A document is a description exactly when it has the shape of one and can be taken
apart.** -/
theorem ofDocument_eq_ok_iff {doc : Json} {a : Api} :
    Api.ofDocument doc = .ok a ↔ Shape.description.fits doc = true ∧ Api.ofJson? doc = some a := by
  rw [Api.ofDocument, bind_eq_ok_iff, ← Shape.isOk_check]
  constructor
  -- First the shape is checked, then the document is read.
  · rintro ⟨_, hcheck, h⟩
    refine ⟨by rw [mapError_eq_ok_iff.mp hcheck]; rfl, ?_⟩
    split at h
    next b hb => rw [hb, pure_eq_ok_iff.mp h]
    next => exact absurd h throw_ne_ok
  · rintro ⟨hcheck, hread⟩
    obtain ⟨_, hcheck⟩ := exists_ok_of_isOk hcheck
    exact ⟨(), mapError_eq_ok_iff.mpr hcheck, by rw [hread]; rfl⟩

end Bindery
