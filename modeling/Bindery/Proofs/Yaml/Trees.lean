import Bindery.Proofs.Success
import Bindery.Proofs.Text
import Bindery.Yaml.Value

/-!
# Trees of documents without references

A document without anchors, references and tags stands for a tree that can be read off node by
node: scalars stand for what they look like (`stands_plain`), and lists and tables for the trees of
their members (`stands_list`, `stands_table`). What a word looks like is decided by its first
character: a word that begins with a letter is no number, so besides the spellings of null and of
the truth values it is a text (`plainValue_eq_str`).
-/

namespace Bindery.Yaml

/-! ### Words that begin with a letter -/

theorem isDigit_of_isAlpha {c : Char} (h : c.isAlpha = true) : c.isDigit = false := by
  rw [Bool.eq_false_iff]
  intro hdigit
  have hletter := Text.toNat_of_isAlpha h
  have hnumber := Text.toNat_of_isDigit hdigit
  omega

section Letter

variable {c : Char} (hc : c.isAlpha = true) (cs : List Char)

include hc

theorem ne_of_isAlpha (d : Char) (hd : d.isAlpha = false) : c ≠ d := by
  rintro rfl
  rw [hc] at hd
  cases hd

/-- A letter is no digit in base ten. -/
theorem naturalIn?_ten_of_isAlpha : naturalIn? 10 (c :: cs) = none := by
  -- A letter stands for ten or more, which is no digit of a decimal.
  have hdigit : digitIn? 10 c = none := by
    rw [digitIn?, hexDigit?, isDigit_of_isAlpha hc, Option.filter_eq_none_iff]
    intro n hn
    rw [if_neg Bool.false_ne_true] at hn
    have hten : ∀ d : Char, d.toNat ≤ c.toNat → some (c.toNat - d.toNat + 10) = some n →
        ¬ n < 10 := by
      intro d _ h
      have := Option.some.inj h
      omega
    split at hn
    next h => simpa using hten _ h.1 hn
    next =>
      split at hn
      next h => simpa using hten _ h.1 hn
      next => cases hn
  rw [naturalIn?, List.isEmpty_cons, if_neg Bool.false_ne_true, List.foldlM_cons, hdigit]
  rfl

theorem isPaddedNumber_of_isAlpha : isPaddedNumber (c :: cs) = false := by
  unfold isPaddedNumber
  split
  next rest h => exact absurd (List.cons.inj h).1 (ne_of_isAlpha hc '-' (by decide))
  next rest h => exact absurd (List.cons.inj h).1 (ne_of_isAlpha hc '+' (by decide))
  next =>
    dsimp only
    split
    next d rest h => exact absurd (List.cons.inj h).1 (ne_of_isAlpha hc '0' (by decide))
    next => rfl

/-- **A word that begins with a letter is no integer.** -/
theorem int64?_of_isAlpha : int64? (c :: cs) = .ok none := by
  -- a base is announced by a zero, a sign by itself
  have hbased : basedDigits? (c :: cs) = none := by
    have hzero := ne_of_isAlpha hc '0' (by decide)
    unfold basedDigits?
    split
    next h => exact absurd (List.cons.inj h).1 hzero
    next h => exact absurd (List.cons.inj h).1 hzero
    next h => exact absurd (List.cons.inj h).1 hzero
    next => rfl
  have hinteger : integer? (c :: cs) = none := by
    have hsign : ∀ d : Char, d.isAlpha = false → ∀ rest, c :: cs ≠ d :: rest := fun d hd rest h =>
      ne_of_isAlpha hc d hd (List.cons.inj h).1
    unfold integer?
    split
    next negative body h =>
      split at h
      next heq => exact absurd heq (hsign '-' (by decide) _)
      next heq => exact absurd heq (hsign '+' (by decide) _)
      next =>
        obtain ⟨rfl, rfl⟩ := Prod.mk.inj h
        rw [hbased, isPaddedNumber_of_isAlpha hc, naturalIn?_ten_of_isAlpha hc]
        rfl
  rw [int64?, hinteger]

/-- **A word that begins with a letter is no fraction.** Infinities begin with a sign or a point. -/
theorem fraction?_of_isAlpha : fraction? (c :: cs) = none := by
  -- infinities and what is no number begin with a point, behind a sign or without one
  have hpoint : ∀ words : List String, (∀ w ∈ words, w.toList.head? = some '.') →
      words.contains (String.ofList (c :: cs)) = false := by
    intro words hwords
    rw [← Bool.not_eq_true, List.contains_iff_mem]
    intro hmem
    have hhead := hwords _ hmem
    rw [String.toList_ofList] at hhead
    exact ne_of_isAlpha hc '.' (by decide) (Option.some.inj hhead)
  have hsign : ∀ d : Char, d.isAlpha = false → ∀ rest, c :: cs ≠ d :: rest := fun d hd rest h =>
    ne_of_isAlpha hc d hd (List.cons.inj h).1
  have hinf := hpoint [".inf", ".Inf", ".INF"] (by decide)
  have hnan := hpoint [".nan", ".NaN", ".NAN"] (by decide)
  -- and a number would begin with a digit
  have hwhole : (c :: cs).takeWhile Char.isDigit = [] :=
    List.takeWhile_cons_of_neg (by rw [isDigit_of_isAlpha hc]; exact Bool.false_ne_true)
  unfold fraction?
  dsimp only
  split
  next heq => exact absurd heq (hsign '-' (by decide) _)
  next heq => exact absurd heq (hsign '+' (by decide) _)
  next =>
    simp only [hinf, hnan, hwhole, Bool.or_false, Bool.false_eq_true, if_false, List.length_nil,
      List.drop_zero, List.nil_append]
    split
    next e digits hexponent hdigits =>
      split at hdigits
      next heq => exact absurd heq (hsign '.' (by decide) _)
      next => cases hdigits
    next => rfl

end Letter

/-- What a word that begins with a letter looks like. -/
def wordValue (s : String) : Json :=
  if isNull s then .null else ((bool? s).map Json.bool).getD (.str s)

theorem plainValue_of_isAlpha {s : String} {c : Char} {cs : List Char} (h : s.toList = c :: cs)
    (hc : c.isAlpha = true) : plainValue s = .ok (wordValue s) := by
  have hne : s ≠ "" := by
    rintro rfl
    cases h
  rw [plainValue, wordValue, h, int64?_of_isAlpha hc, isPaddedNumber_of_isAlpha hc,
    fraction?_of_isAlpha hc]
  by_cases hnull : isNull s = true
  · simp [hnull]
  · simp only [hne, hnull, Bool.false_eq_true, if_false]
    cases bool? s <;> rfl

theorem plainValue_eq_str {s : String} (hfirst : s.toList.head?.any Char.isAlpha = true)
    (hnull : isNull s = false) (hbool : bool? s = none) : plainValue s = .ok (.str s) := by
  cases hs : s.toList with
  | nil =>
    rw [hs] at hfirst
    cases hfirst
  | cons c cs =>
    rw [hs] at hfirst
    rw [plainValue_of_isAlpha hs hfirst, wordValue, hnull, hbool]
    rfl

/-! ### Nodes -/

/-- **A node stands for a tree**, at a depth and however many references were followed before. -/
def Document.Stands (d : Document) (limit depth : Nat) (n : Node) (j : Json) : Prop :=
  ∀ count, (d.value limit depth n).run count = .ok (j, count)

section Stands

variable {d : Document} {limit depth : Nat}

theorem stands_scalar {text : String} {style : Style} {j : Json}
    (h : scalarValue text style none = .ok j) :
    d.Stands limit depth (.scalar text style none) j := by
  intro count
  rw [Document.value]
  simp only [Document.follow, pure_bind, h]
  rfl

/-- A plain scalar stands for what it looks like. -/
theorem stands_plain {text : String} {j : Json} (h : plainValue text = .ok j) :
    d.Stands limit depth (.scalar text .plain none) j :=
  stands_scalar h

/-- A quoted scalar is a text. -/
theorem stands_quoted (text : String) :
    d.Stands limit depth (.scalar text .explicit none) (.str text) :=
  stands_scalar rfl

/-- **A list stands for the trees of its items.** -/
theorem stands_list {items : List Node} {js : List Json}
    (h : List.Forall₂ (d.Stands limit depth) items js) :
    d.Stands limit (depth + 1) (.list none items) (.arr js) := by
  intro count
  -- The items are read in turn, each one from the count that the one before has left.
  have hitems : (items.mapM (Document.value d limit depth)).run count = .ok (js, count) := by
    induction h with
    | nil => rfl
    | cons hfirst _ ih =>
      rw [List.mapM_cons, StateT.run_bind]
      refine bind_eq_ok_iff.mpr ⟨_, hfirst count, ?_⟩
      rw [StateT.run_bind]
      exact bind_eq_ok_iff.mpr ⟨_, ih, rfl⟩
  rw [Document.value]
  simp only [Document.follow, pure_bind, checkTag, Option.any_none, Bool.false_eq_true, if_false]
  rw [StateT.run_bind, hitems]
  rfl

/-- **A table stands for the trees of its values** under the texts of its keys. -/
theorem stands_table {entries : List (Node × Node)} {js : List (String × Json)}
    (h : List.Forall₂ (fun e j => (∃ style tag, e.1 = .scalar j.1 style tag) ∧
      d.Stands limit depth e.2 j.2) entries js) :
    d.Stands limit (depth + 1) (.table none entries) (Json.ofEntries js) := by
  intro count
  -- no entry holds an alias, so the count stays as it is
  have hentries : (entries.mapM fun e => (do
      let key ← d.key limit e.1
      let value ← Document.value d limit depth e.2
      return (key, value) : Follow (String × Json))).run count = .ok (js, count) := by
    induction h with
    | nil => rfl
    | cons hfirst _ ih =>
      obtain ⟨⟨style, tag, hkey⟩, hvalue⟩ := hfirst
      rw [List.mapM_cons, hkey, Document.key]
      simp only [Document.follow, pure_bind, bind_assoc]
      rw [StateT.run_bind]
      refine bind_eq_ok_iff.mpr ⟨_, hvalue count, ?_⟩
      rw [StateT.run_bind]
      exact bind_eq_ok_iff.mpr ⟨_, ih, rfl⟩
  rw [Document.value]
  simp only [Document.follow, pure_bind, checkTag, Option.any_none, Bool.false_eq_true, if_false]
  rw [StateT.run_bind, hentries]
  rfl

end Stands

end Bindery.Yaml
