import Bindery.Proofs.Schema.Phrases
import Bindery.Schema.Scan

/-!
# Blanks at the end of a line

The scanner does not notice blanks at the end of what it reads. Each reader of a phrase treats a
text and the same text with blanks behind it (`Trails`) alike: it fails on both, or it takes the
same from both and leaves rests of which the one is again the other with blanks behind it. That
goes through all phrases, from the classes of characters up to a line:

* `Trails.namespaceOf?_eq`, `Trails.headerOf?_eq` — the phrases at the beginning of a line;
* `Trails.enumItems_eq`, `Trails.fieldsIn_eq` — the values and the fields in a body;
* `Trails.addLine_eq` — a line, whatever is known before it.

Nothing is assumed of the text. Blanks are those of every script, and it is here that no blank is a
word character or a decimal digit (`isWord_eq_false`, `isDecimalDigit_eq_false`).
-/

namespace Bindery.Schema

open Text (isBlank isWord isDecimalDigit cutList dropPrefixList? withinRanges blankRanges wordRanges
  digitRanges)

open Source (isBlank_eq_false)

/-! ### Blanks beyond ASCII -/

/-- Two boundaries make a range. -/
theorem withinRanges_pair (n a b : Nat) (rest : List Nat) :
    withinRanges n (a :: b :: rest) =
      (decide (a ≤ n) && (decide (n < b) || withinRanges n rest)) := by
  rw [withinRanges, withinRanges]
  by_cases ha : n < a
  · simp [ha, Nat.not_le.mpr ha]
  · by_cases hb : n < b <;> simp [ha, hb, Nat.not_lt.mp ha]

/-- The blanks beyond ASCII, one by one. -/
def wideBlanks : List Nat :=
  [0x85, 0xA0, 0x1680, 0x2000, 0x2001, 0x2002, 0x2003, 0x2004, 0x2005, 0x2006, 0x2007, 0x2008,
   0x2009, 0x200A, 0x2028, 0x2029, 0x202F, 0x205F, 0x3000]

theorem mem_wideBlanks {n : Nat} (h : withinRanges n blankRanges = true) : n ∈ wideBlanks := by
  simp only [blankRanges, withinRanges_pair, Text.withinRanges_nil, Bool.and_eq_true,
    Bool.or_eq_true, decide_eq_true_eq, Bool.false_eq_true, or_false] at h
  simp only [wideBlanks, List.mem_cons, List.not_mem_nil, or_false]
  omega

/-- A blank is one of the few of ASCII or beyond it. -/
theorem lt_or_mem_wideBlanks {c : Char} (h : isBlank c = true) :
    c.toNat ≤ 0x20 ∨ c.toNat ∈ wideBlanks := by
  simp only [isBlank, Bool.or_eq_true, Bool.and_eq_true, decide_eq_true_eq] at h
  rcases h with (rfl | ⟨-, h⟩) | ⟨-, h⟩
  · exact .inl (by decide)
  · exact .inl (by omega)
  · exact .inr (mem_wideBlanks h)

/-- A table that holds none of the blanks beyond ASCII has no blank above 127. -/
theorem wide_eq_false {c : Char} (h : isBlank c = true) {ranges : List Nat}
    (hranges : ∀ n ∈ wideBlanks, withinRanges n ranges = false) :
    (decide (128 ≤ c.toNat) && withinRanges c.toNat ranges) = false := by
  rcases lt_or_mem_wideBlanks h with hlow | hwide
  · have hlow' : ¬ 128 ≤ c.toNat := by omega
    rw [decide_eq_false hlow', Bool.false_and]
  · rw [hranges _ hwide, Bool.and_false]

/-- A class whose members are no blanks holds no blank. -/
theorem eq_false_of_isBlank {p : Char → Bool} (hp : ∀ c, p c = true → isBlank c = false) {c : Char}
    (h : isBlank c = true) : p c = false :=
  Bool.eq_false_iff.mpr fun hc => by simp [hp c hc] at h

/-- **No blank is a word character.** -/
theorem isWord_eq_false {c : Char} (h : isBlank c = true) : isWord c = false := by
  have hname : (c.isAlphanum || decide (c = '_')) = false :=
    eq_false_of_isBlank (p := isNameTail) (fun _ => Source.isBlank_of_isNameTail) h
  have htable : ∀ n ∈ wideBlanks, withinRanges n wordRanges = false := by decide +kernel
  rw [isWord, hname, wide_eq_false h htable, Bool.or_false]

/-- **No blank is a digit.** -/
theorem isDecimalDigit_eq_false {c : Char} (h : isBlank c = true) : isDecimalDigit c = false := by
  have hdigit : c.isDigit = false := eq_false_of_isBlank (fun _ => Source.isBlank_of_isDigit) h
  have htable : ∀ n ∈ wideBlanks, withinRanges n digitRanges = false := by decide +kernel
  rw [isDecimalDigit, hdigit, wide_eq_false h htable, Bool.or_false]

theorem ne_of_isBlank {c d : Char} (h : isBlank c = true) (hd : isBlank d = false) : c ≠ d := by
  rintro rfl
  simp [hd] at h

theorem not_mem_blanks {d : Char} (hd : isBlank d = false) {b : List Char}
    (hb : ∀ c ∈ b, isBlank c = true) : d ∉ b := fun hmem => ne_of_isBlank (hb d hmem) hd rfl

/-! ### Texts with blanks behind them -/

/-- **One text is another with blanks behind it.** -/
def Trails (cs cs' : List Char) : Prop := ∃ b, (∀ c ∈ b, isBlank c = true) ∧ cs' = cs ++ b

/-- Two texts end together, or they begin with the same character and what follows it in the one is
what follows it in the other with blanks behind it. -/
def Together (cs cs' : List Char) : Prop :=
  cs = [] ∧ cs' = [] ∨ ∃ c t t', cs = c :: t ∧ cs' = c :: t' ∧ Trails t t'

/-- Two readings with the same result and rests of which one trails the other. -/
def Ahead {α : Type} (r r' : α × List Char) : Prop := r.1 = r'.1 ∧ Trails r.2 r'.2

namespace Trails

variable {cs cs' : List Char} {p q : Char → Bool}

theorem refl (cs : List Char) : Trails cs cs := ⟨[], nofun, (List.append_nil cs).symm⟩

theorem append (cs : List Char) {b : List Char} (hb : ∀ c ∈ b, isBlank c = true) :
    Trails cs (cs ++ b) := ⟨b, hb, rfl⟩

theorem cons (c : Char) (h : Trails cs cs') : Trails (c :: cs) (c :: cs') := by
  obtain ⟨b, hb, rfl⟩ := h
  exact ⟨b, hb, rfl⟩

/-- **A class that has all blanks in it is passed over on both sides.** -/
theorem dropWhile (hp : ∀ c, isBlank c = true → p c = true) (h : Trails cs cs') :
    Together (cs.dropWhile p) (cs'.dropWhile p) := by
  obtain ⟨b, hb, rfl⟩ := h
  -- What is dropped ends within the old text, or it takes all of it and blanks of the new end as
  -- well.
  induction cs with
  | nil =>
    refine .inl ⟨rfl, ?_⟩
    exact List.dropWhile_eq_nil_iff.mpr fun c hc => hp c (hb c hc)
  | cons c cs ih =>
    rw [List.cons_append, List.dropWhile_cons, List.dropWhile_cons]
    by_cases hc : p c = true
    · rw [if_pos hc, if_pos hc]
      exact ih
    · rw [if_neg hc, if_neg hc]
      exact .inr ⟨c, cs, cs ++ b, rfl, rfl, append cs hb⟩

/-- What a class takes that has all blanks in it. -/
theorem takeWhile (hp : ∀ c, isBlank c = true → p c = true) (h : Trails cs cs') :
    Trails (cs.takeWhile p) (cs'.takeWhile p) := by
  obtain ⟨b, hb, rfl⟩ := h
  -- What is taken ends where it did, or it takes the new blanks with it.
  induction cs with
  | nil =>
    have hall : b.takeWhile p = b := List.takeWhile_eq_self_iff.mpr fun c hc => hp c (hb c hc)
    exact ⟨b, hb, hall⟩
  | cons c cs ih =>
    rw [List.cons_append, List.takeWhile_cons, List.takeWhile_cons]
    by_cases hc : p c = true
    · rw [if_pos hc, if_pos hc]
      exact ih.cons c
    · rw [if_neg hc, if_neg hc]
      exact refl []

/-- Where a class ends before the blanks it takes the same. -/
theorem takeWhile_eq_of_dropWhile {c : Char} {t : List Char} (h : Trails cs cs')
    (hdrop : cs.dropWhile p = c :: t) : cs'.takeWhile p = cs.takeWhile p := by
  obtain ⟨b, -, rfl⟩ := h
  rw [List.takeWhile_append, if_neg]
  intro hlength
  have hall := List.takeWhile_append_dropWhile (p := p) (l := cs)
  rw [hdrop] at hall
  have := congrArg List.length hall
  simp at this
  omega

/-- **A class that has no blank in it ends at the same place on both sides.** -/
theorem takeWhile_eq (hp : ∀ c, isBlank c = true → p c = false) (h : Trails cs cs') :
    cs'.takeWhile p = cs.takeWhile p ∧ Trails (cs.dropWhile p) (cs'.dropWhile p) := by
  obtain ⟨b, hb, rfl⟩ := h
  -- Blanks stop the taking, so it ends at the same character.
  induction cs with
  | nil =>
    have hstop : Source.Stops p b := Source.stops_of_forall fun c hc => hp c (hb c hc)
    rw [List.nil_append, Source.takeWhile_eq_nil hstop, Source.dropWhile_eq_self hstop]
    exact ⟨rfl, b, hb, rfl⟩
  | cons c cs ih =>
    rw [List.cons_append, List.takeWhile_cons, List.takeWhile_cons, List.dropWhile_cons,
      List.dropWhile_cons]
    by_cases hc : p c = true
    · rw [if_pos hc, if_pos hc, if_pos hc, if_pos hc, ih.1]
      exact ⟨rfl, ih.2⟩
    · rw [if_neg hc, if_neg hc, if_neg hc, if_neg hc]
      exact ⟨rfl, (append cs hb).cons c⟩

end Trails

theorem Together.trails {cs cs' : List Char} (h : Together cs cs') : Trails cs cs' := by
  rcases h with ⟨rfl, rfl⟩ | ⟨c, t, t', rfl, rfl, h⟩
  · exact .refl []
  · exact h.cons c

/-! ### One reader after the other -/

section Rel

variable {α β γ δ : Type} {R : α → β → Prop} {x : Option α} {y : Option β}

theorem rel_bind {S : γ → δ → Prop} (h : Option.Rel R x y) {f : α → Option γ} {g : β → Option δ}
    (hfg : ∀ a b, R a b → Option.Rel S (f a) (g b)) : Option.Rel S (x.bind f) (y.bind g) := by
  cases h with
  | none => exact .none
  | some hab => exact hfg _ _ hab

theorem rel_map {S : γ → δ → Prop} (h : Option.Rel R x y) {f : α → γ} {g : β → δ}
    (hfg : ∀ a b, R a b → S (f a) (g b)) : Option.Rel S (x.map f) (y.map g) := by
  cases h with
  | none => exact .none
  | some hab => exact .some (hfg _ _ hab)

theorem eq_none_of_rel (h : Option.Rel R none y) : y = none := by
  cases h
  rfl

theorem exists_of_rel {a : α} (h : Option.Rel R (some a) y) : ∃ b, y = some b ∧ R a b := by
  cases h with
  | some hab => exact ⟨_, rfl, hab⟩

theorem bind_eq_bind_of_rel (h : Option.Rel R x y) {f : α → Option γ} {g : β → Option γ}
    (hfg : ∀ a b, R a b → f a = g b) : x.bind f = y.bind g := by
  cases h with
  | none => rfl
  | some hab => exact hfg _ _ hab

theorem map_eq_map_of_rel (h : Option.Rel R x y) {f : α → γ} {g : β → γ}
    (hfg : ∀ a b, R a b → f a = g b) : x.map f = y.map g := by
  cases h with
  | none => rfl
  | some hab => exact congrArg some (hfg _ _ hab)

end Rel

/-- The number that the digits at the beginning of a text are. -/
def digitsOf? (negative : Bool) (cs : List Char) : Option (Option Int × List Char) :=
  match cs.takeWhile isDecimalDigit with
  | [] => none
  | digits => some (int64Of? negative digits, cs.dropWhile isDecimalDigit)

theorem numberOf?_minus {cs t : List Char} (h : skipBlanks cs = '-' :: t) :
    numberOf? cs = digitsOf? true t := by
  rw [numberOf?, h]
  rfl

theorem numberOf?_plain {cs t : List Char} (h : skipBlanks cs = t) (ht : t.head? ≠ some '-') :
    numberOf? cs = digitsOf? false t := by
  rw [numberOf?, h]
  split
  next negative rest heq =>
    split at heq
    next => exact absurd rfl ht
    next =>
      cases heq
      rfl

namespace Trails

variable {cs cs' : List Char} {p q : Char → Bool}

theorem skipBlanks (h : Trails cs cs') : Together (skipBlanks cs) (skipBlanks cs') :=
  h.dropWhile fun _ => id

/-- **A name is read alike.** -/
theorem name? (hp : ∀ c, isBlank c = true → p c = false) (hq : ∀ c, isBlank c = true → q c = false)
    (h : Trails cs cs') : Option.Rel Ahead (name? p q cs) (name? p q cs') := by
  obtain ⟨b, hb, rfl⟩ := h
  -- A name needs a first character, which no blank is.
  cases cs with
  | nil =>
    cases b with
    | nil => exact .none
    | cons c b =>
      have hc : p c = false := hp c (hb c List.mem_cons_self)
      have hnone : Schema.name? p q (c :: b) = none := if_neg (by simp [hc])
      rw [List.nil_append, hnone]
      exact .none
  | cons c cs =>
    rw [List.cons_append, Schema.name?, Schema.name?]
    by_cases hc : p c = true
    · obtain ⟨htake, hdrop⟩ := (append cs hb).takeWhile_eq hq
      rw [if_pos hc, if_pos hc, htake]
      exact .some ⟨rfl, hdrop⟩
    · rw [if_neg hc, if_neg hc]
      exact .none

/-- A name is read alike behind at least one blank. -/
theorem spacedName (hp : ∀ c, isBlank c = true → p c = false)
    (hq : ∀ c, isBlank c = true → q c = false) (h : Trails cs cs') :
    Option.Rel Ahead ((someBlanks? cs).bind (Schema.name? p q))
      ((someBlanks? cs').bind (Schema.name? p q)) := by
  obtain ⟨b, hb, rfl⟩ := h
  cases cs with
  | nil =>
    -- where there are only blanks there is no name behind them
    have hnone : (someBlanks? b).bind (Schema.name? p q) = none := by
      cases b with
      | nil => rfl
      | cons c b =>
        have hskip : Schema.skipBlanks b = [] :=
          List.dropWhile_eq_nil_iff.mpr fun d hd => hb d (List.mem_cons_of_mem c hd)
        rw [someBlanks?, if_pos (hb c List.mem_cons_self), hskip]
        rfl
    rw [List.nil_append, hnone]
    exact .none
  | cons c cs =>
    rw [List.cons_append, someBlanks?, someBlanks?]
    by_cases hc : isBlank c = true
    · rw [if_pos hc, if_pos hc]
      exact (append cs hb).skipBlanks.trails.name? hp hq
    · rw [if_neg hc, if_neg hc]
      exact .none

/-- A word is read alike. -/
theorem dropPrefixList? {start : List Char} (hstart : start.all isNameTail = true)
    (h : Trails cs cs') :
    Option.Rel Trails (dropPrefixList? start cs) (dropPrefixList? start cs') := by
  induction start generalizing cs cs' with
  | nil => exact .some h
  | cons p ps ih =>
    obtain ⟨hp, hps⟩ := Bool.and_eq_true_iff.mp hstart
    obtain ⟨b, hb, rfl⟩ := h
    cases cs with
    | nil =>
      cases b with
      | nil => exact .none
      | cons c b =>
        -- the first blank is not the character that is asked for
        have hc : p ≠ c :=
          (ne_of_isBlank (hb c List.mem_cons_self) (Source.isBlank_of_isNameTail hp)).symm
        have hnone : Text.dropPrefixList? (p :: ps) (c :: b) = none := if_neg hc
        rw [List.nil_append, hnone]
        exact .none
    | cons c cs =>
      rw [List.cons_append, Text.dropPrefixList?, Text.dropPrefixList?]
      by_cases hc : p = c
      · rw [if_pos hc, if_pos hc]
        exact ih hps (append cs hb)
      · rw [if_neg hc, if_neg hc]
        exact .none

/-! ### Namespaces and headers -/

theorem namespaceOf?_eq (h : Trails cs cs') : namespaceOf? cs' = namespaceOf? cs := by
  have hword : "namespace".toList.all isNameTail = true := by decide
  simp only [namespaceOf?, Option.bind_eq_bind]
  refine (bind_eq_bind_of_rel (h.skipBlanks.trails.dropPrefixList? hword) fun r r' hr => ?_).symm
  rw [← Option.bind_assoc, ← Option.bind_assoc]
  refine bind_eq_bind_of_rel (hr.spacedName (fun _ => eq_false_of_isBlank fun _ =>
    Source.isBlank_of_isAlpha) fun _ => eq_false_of_isBlank fun _ => isBlank_eq_false) ?_
  rintro ⟨n, r⟩ ⟨n', r'⟩ ⟨hn, hr⟩
  obtain rfl : n = n' := hn
  rcases hr.skipBlanks with ⟨hskip, hskip'⟩ | ⟨c, t, t', hskip, hskip', -⟩
  · simp only [hskip, hskip']
  · by_cases hc : c = ';' <;> simp [hskip, hskip', hc]

theorem keyword? (h : Trails cs cs') : Option.Rel Ahead (keyword? cs) (keyword? cs') := by
  have hkeyword : ∀ k : TypeKind, k.name.toList.all isNameTail = true := by
    intro k
    cases k <;> decide
  have hall : ∀ ks : List TypeKind, Option.Rel Ahead
      (ks.findSome? fun k => (Text.dropPrefixList? k.name.toList cs).map (k, ·))
      (ks.findSome? fun k => (Text.dropPrefixList? k.name.toList cs').map (k, ·)) := by
    intro ks
    induction ks with
    | nil => exact .none
    | cons k ks ih =>
      -- both readers find this keyword or both go on
      rw [List.findSome?_cons, List.findSome?_cons]
      have hk := rel_map (S := Ahead) (h.dropPrefixList? (hkeyword k)) (f := (k, ·)) (g := (k, ·))
        fun _ _ hr => ⟨rfl, hr⟩
      revert hk
      generalize (Text.dropPrefixList? k.name.toList cs).map (k, ·) = x
      generalize (Text.dropPrefixList? k.name.toList cs').map (k, ·) = y
      intro hk
      cases hk with
      | none => exact ih
      | some hr => exact .some hr
  exact hall _

theorem baseOf?_eq (h : Trails cs cs') : baseOf? cs = baseOf? cs' := by
  rw [baseOf?, baseOf?]
  rcases h.skipBlanks with ⟨hskip, hskip'⟩ | ⟨c, t, t', hskip, hskip', ht⟩
  · simp only [hskip, hskip']
  · by_cases hc : c = ':'
    · have hname := ht.skipBlanks.trails.name? (p := isWord) (q := isWord)
        (fun _ => isWord_eq_false) fun _ => isWord_eq_false
      simp only [hskip, hskip', hc]
      exact map_eq_map_of_rel hname fun r r' hr => congrArg String.ofList hr.1
    · simp [hskip, hskip', hc]

theorem headerOf?_eq (h : Trails cs cs') : headerOf? cs' = headerOf? cs := by
  simp only [headerOf?, Option.bind_eq_bind]
  -- Reader by reader: each one returns the same and leaves texts that are alike up to their ends.
  refine (bind_eq_bind_of_rel h.skipBlanks.trails.keyword? ?_).symm
  rintro ⟨k, r⟩ ⟨k', r'⟩ ⟨hk, hr⟩
  obtain rfl : k = k' := hk
  simp only
  rw [← Option.bind_assoc, ← Option.bind_assoc]
  refine bind_eq_bind_of_rel (hr.spacedName (fun _ => eq_false_of_isBlank fun _ =>
    Source.isBlank_of_isUpper) fun _ => eq_false_of_isBlank fun c hc =>
      Source.isBlank_of_isNameTail (isNameTail_of_isAlphanum hc)) ?_
  rintro ⟨n, r⟩ ⟨n', r'⟩ ⟨hn, hr⟩
  obtain rfl : n = n' := hn
  simp only [hr.baseOf?_eq]

/-! ### Values -/

theorem digitsOf? (negative : Bool) (h : Trails cs cs') :
    Option.Rel Ahead (digitsOf? negative cs) (digitsOf? negative cs') := by
  obtain ⟨htake, hdrop⟩ := h.takeWhile_eq fun _ => isDecimalDigit_eq_false
  rw [Schema.digitsOf?, Schema.digitsOf?, htake]
  split
  · exact .none
  · exact .some ⟨rfl, hdrop⟩

theorem numberOf? (h : Trails cs cs') : Option.Rel Ahead (numberOf? cs) (numberOf? cs') := by
  rcases h.skipBlanks with ⟨hskip, hskip'⟩ | ⟨c, t, t', hskip, hskip', ht⟩
  · rw [numberOf?_plain hskip nofun, numberOf?_plain hskip' nofun]
    exact digitsOf? false (.refl [])
  · by_cases hc : c = '-'
    · rw [hc] at hskip hskip'
      rw [numberOf?_minus hskip, numberOf?_minus hskip']
      exact ht.digitsOf? true
    · have hhead : some c ≠ some '-' := fun h => hc (Option.some.inj h)
      rw [numberOf?_plain hskip hhead, numberOf?_plain hskip' hhead]
      exact (ht.cons c).digitsOf? false

/-- **A piece is the same value** with blanks behind it. -/
theorem enumItemOf?_eq (h : Trails cs cs') : enumItemOf? cs' = enumItemOf? cs := by
  simp only [enumItemOf?, Option.bind_eq_bind]
  refine (bind_eq_bind_of_rel (h.skipBlanks.trails.name?
    (fun _ => eq_false_of_isBlank fun _ => Source.isBlank_of_isNameStart)
    fun _ => eq_false_of_isBlank fun _ => Source.isBlank_of_isNameTail) ?_).symm
  rintro ⟨n, r⟩ ⟨n', r'⟩ ⟨hn, hr⟩
  obtain rfl : n = n' := hn
  -- After the name there is nothing, a number, or something that is no number.
  rcases hr.skipBlanks with ⟨hskip, hskip'⟩ | ⟨c, t, t', hskip, hskip', ht⟩
  · simp only [hskip, hskip']
  · by_cases hc : c = '='
    · simp only [hskip, hskip', hc]
      refine bind_eq_bind_of_rel ht.numberOf? ?_
      rintro ⟨v, r⟩ ⟨v', r'⟩ ⟨hv, hr⟩
      obtain rfl : v = v' := hv
      rcases hr.skipBlanks with ⟨hskip, hskip'⟩ | ⟨c, t, t', hskip, hskip', ht⟩
      · simp only [hskip, hskip']
      · simp only [hskip, hskip']
    · simp [hskip, hskip', hc]

/-- What stands between separators stays between them, and the last piece has the blanks behind
it. -/
theorem cutList {sep : Char} (hsep : isBlank sep = false) (h : Trails cs cs') :
    List.Forall₂ Trails (cutList sep cs) (cutList sep cs') := by
  obtain ⟨b, hb, rfl⟩ := h
  rw [Text.cutList_eq_splitOn, Text.cutList_eq_splitOn]
  -- Only the last piece has the end of the text.
  induction cs with
  | nil =>
    rw [List.nil_append, List.splitOn_eq_singleton (not_mem_blanks hsep hb)]
    exact .cons ⟨b, hb, rfl⟩ .nil
  | cons c cs ih =>
    rw [List.cons_append, List.splitOn_cons_eq_if_modifyHead, List.splitOn_cons_eq_if_modifyHead]
    split
    · exact .cons (refl []) ih
    · revert ih
      generalize cs.splitOn sep = pieces
      generalize (cs ++ b).splitOn sep = pieces'
      intro ih
      cases ih with
      | nil => exact .nil
      | cons hp hrest => exact .cons (hp.cons c) hrest

/-- **The values in a body are the same.** -/
theorem enumItems_eq (h : Trails cs cs') : enumItems cs' = enumItems cs := by
  rw [enumItems, enumItems]
  have hcomma : isBlank ',' = false := by decide
  have hpieces := h.cutList hcomma
  generalize Text.cutList ',' cs = pieces at hpieces
  generalize Text.cutList ',' cs' = pieces' at hpieces
  induction hpieces with
  | nil => rfl
  | cons hp _ ih => rw [List.filterMap_cons, List.filterMap_cons, hp.enumItemOf?_eq, ih]

end Trails

/-! ### Fields -/

theorem fieldsIn_cons (c : Char) (cs : List Char) :
    fieldsIn (c :: cs) =
      match fieldAt? (c :: cs) with
      | some (f, after) => f :: fieldsIn after
      | none => fieldsIn cs := by
  rw [fieldsIn]
  split
  next heq => rw [heq]
  next heq => rw [heq]

/-- What begins no field is passed over. -/
theorem fieldsIn_cons_of_not_isFieldStart {c : Char} (hc : Source.isFieldStart c = false)
    (cs : List Char) : fieldsIn (c :: cs) = fieldsIn cs := by
  rw [fieldsIn_cons, Source.fieldAt?_eq_none hc]

theorem fieldsIn_blanks {b : List Char} (hb : ∀ c ∈ b, isBlank c = true) : fieldsIn b = [] := by
  induction b with
  | nil => rw [fieldsIn]
  | cons c b ih =>
    obtain ⟨hc, hrest⟩ := List.forall_mem_cons.mp hb
    have hstart := eq_false_of_isBlank (fun _ => Source.isBlank_of_isFieldStart) hc
    rw [fieldsIn_cons_of_not_isFieldStart hstart, ih hrest]

theorem typeText?_plain {cs : List Char} (h : cs.head? ≠ some '[') :
    typeText? cs = name? isNameStart isDottedTail cs := by
  rw [typeText?]
  rintro t rfl
  exact h rfl

namespace Trails

variable {cs cs' : List Char}

theorem colon? (h : Trails cs cs') : Option.Rel Trails (colon? cs) (colon? cs') := by
  rw [Schema.colon?, Schema.colon?]
  -- Nothing but blanks are before the colon, so its place does not change.
  rcases h.skipBlanks with ⟨hskip, hskip'⟩ | ⟨c, t, t', hskip, hskip', ht⟩
  · rw [hskip, hskip']
    exact .none
  · rw [hskip, hskip']
    split
    next heq =>
      cases heq
      exact .some ht.skipBlanks.trails
    next hc =>
      split
      next heq =>
        cases heq
        exact absurd rfl (hc t)
      next => exact .none

/-- Up to a character that is no blank both texts are the same. -/
theorem after? {d : Char} (hd : isBlank d = false) (h : Trails cs cs') :
    Option.Rel Trails (after? d cs) (after? d cs') := by
  rw [Schema.after?, Schema.after?]
  have hpass : ∀ c, isBlank c = true → decide (c ≠ d) = true := fun c hc =>
    decide_eq_true (ne_of_isBlank hc hd)
  rcases h.dropWhile hpass with ⟨hdrop, hdrop'⟩ | ⟨c, t, t', hdrop, hdrop', ht⟩
  · simp only [hdrop, hdrop']
    exact .none
  · simp only [hdrop, hdrop']
    exact .some ht

theorem closeBracket? (h : Trails cs cs') :
    Option.Rel Ahead (closeBracket? cs) (closeBracket? cs') := by
  rw [Schema.closeBracket?, Schema.closeBracket?]
  have hpass : ∀ c, isBlank c = true → decide (c ≠ ']') = true := fun c hc =>
    decide_eq_true (ne_of_isBlank hc (by decide))
  -- The bracket ends what is passed over, whether or not blanks follow it.
  rcases h.dropWhile hpass with ⟨hdrop, hdrop'⟩ | ⟨c, t, t', hdrop, hdrop', ht⟩
  · simp only [hdrop, hdrop']
    exact .none
  · have htake := h.takeWhile_eq_of_dropWhile hdrop
    obtain rfl : c = ']' := by
      have hhead := List.head?_dropWhile_not (fun c => decide (c ≠ ']')) cs
      rw [hdrop] at hhead
      simpa using hhead
    simp only [hdrop, hdrop', htake]
    split
    · exact .none
    · exact .some ⟨rfl, ht⟩

theorem typeText? (h : Trails cs cs') : Option.Rel Ahead (typeText? cs) (typeText? cs') := by
  have hname := h.name? (p := isNameStart) (q := isDottedTail)
    (fun _ => eq_false_of_isBlank fun _ => Source.isBlank_of_isNameStart)
    fun _ => eq_false_of_isBlank fun _ => isBlank_eq_false
  obtain ⟨b, hb, rfl⟩ := h
  cases cs with
  | nil =>
    cases b with
    | nil => exact .none
    | cons c b =>
      -- what is behind begins with a blank, which is no bracket
      have hc : (c :: b).head? ≠ some '[' := fun h =>
        ne_of_isBlank (hb c List.mem_cons_self) (by decide) (Option.some.inj h)
      have hnil : ([] : List Char).head? ≠ some '[' := by simp
      rwa [List.nil_append, typeText?_plain hnil, typeText?_plain hc]
  | cons c cs =>
    by_cases hc : c = '['
    · subst hc
      exact rel_map (append cs hb).closeBracket? fun r r' hr => ⟨congrArg ('[' :: ·) hr.1, hr.2⟩
    · have hhead : ∀ t : List Char, (c :: t).head? ≠ some '[' := fun t h =>
        hc (Option.some.inj h)
      rwa [List.cons_append, typeText?_plain (hhead cs), typeText?_plain (hhead (cs ++ b))]

theorem fieldAt? (h : Trails cs cs') : Option.Rel Ahead (fieldAt? cs) (fieldAt? cs') := by
  simp only [Schema.fieldAt?, Option.bind_eq_bind]
  refine rel_bind (h.name?
    (fun _ => eq_false_of_isBlank fun _ => Source.isBlank_of_isFieldStart)
    fun _ => eq_false_of_isBlank fun _ => Source.isBlank_of_isNameTail) ?_
  rintro ⟨n, r⟩ ⟨n', r'⟩ ⟨hn, hr⟩
  obtain rfl : n = n' := hn
  refine rel_bind hr.colon? fun r r' hr => rel_bind hr.typeText? ?_
  rintro ⟨t, r⟩ ⟨t', r'⟩ ⟨ht, hr⟩
  obtain rfl : t = t' := ht
  exact rel_bind (hr.after? (by decide)) fun r r' hr => .some ⟨rfl, hr⟩

/-- **The fields in a body are the same.** -/
theorem fieldsIn_eq (h : Trails cs cs') : fieldsIn cs' = fieldsIn cs := by
  -- what stands behind a field is shorter, and it is again followed by the blanks
  induction hn : cs.length using Nat.strong_induction_on generalizing cs cs' with
  | _ n ih =>
    subst hn
    obtain ⟨b, hb, rfl⟩ := h
    cases cs with
    | nil => rw [List.nil_append, fieldsIn_blanks hb, fieldsIn]
    | cons c cs =>
      have htrails : Trails (c :: cs) (c :: (cs ++ b)) := (append cs hb).cons c
      have hfield := htrails.fieldAt?
      rw [List.cons_append, fieldsIn_cons, fieldsIn_cons]
      cases hcs : Schema.fieldAt? (c :: cs) with
      | none =>
        rw [hcs] at hfield
        rw [eq_none_of_rel hfield]
        exact ih cs.length (Nat.lt_succ_self _) (append cs hb) rfl
      | some r =>
        obtain ⟨f, after⟩ := r
        rw [hcs] at hfield
        obtain ⟨⟨f', after'⟩, hcs', hf, hafter⟩ := exists_of_rel hfield
        obtain rfl : f = f' := hf
        rw [hcs']
        exact congrArg (f :: ·) (ih after.length (length_fieldAt? hcs) hafter rfl)

/-! ### Lines -/

theorem mem_iff {d : Char} (hd : isBlank d = false) (h : Trails cs cs') : d ∈ cs' ↔ d ∈ cs := by
  obtain ⟨b, hb, rfl⟩ := h
  rw [List.mem_append, or_iff_left (not_mem_blanks hd hb)]

theorem count_eq {d : Char} (hd : isBlank d = false) (h : Trails cs cs') :
    cs'.count d = cs.count d := by
  obtain ⟨b, hb, rfl⟩ := h
  rw [List.count_append, List.count_eq_zero.mpr (not_mem_blanks hd hb), Nat.add_zero]

theorem braceBalance_eq (h : Trails cs cs') : braceBalance cs' = braceBalance cs := by
  rw [braceBalance, braceBalance, h.count_eq (by decide), h.count_eq (by decide)]

theorem contains_eq (h : Trails cs cs') : cs'.contains '\x7b' = cs.contains '\x7b' := by
  rw [Bool.eq_iff_iff, List.contains_iff_mem, List.contains_iff_mem, h.mem_iff (by decide)]

theorem beforeClose (h : Trails cs cs') : Trails (beforeClose cs) (beforeClose cs') :=
  h.takeWhile fun _ hc => decide_eq_true (ne_of_isBlank hc (by decide))

theorem afterOpen (h : Trails cs cs') : Trails (afterOpen cs) (afterOpen cs') := by
  rw [Schema.afterOpen, Schema.afterOpen]
  have hpass : ∀ c, isBlank c = true → decide (c ≠ '\x7b') = true := fun _ hc =>
    decide_eq_true (ne_of_isBlank hc (by decide))
  rcases h.dropWhile hpass with ⟨hdrop, hdrop'⟩ | ⟨c, t, t', hdrop, hdrop', ht⟩
  · rw [hdrop, hdrop']
    exact refl _
  · rwa [hdrop, hdrop', List.drop_one, List.drop_one]

theorem addBody_eq (u : Unclosed) (h : Trails cs cs') : u.addBody cs' = u.addBody cs := by
  rw [Unclosed.addBody, Unclosed.addBody, h.enumItems_eq, h.fieldsIn_eq]

theorem ofHeader_eq (scope : String) (header : Header) (h : Trails cs cs') :
    Unclosed.ofHeader scope header cs' = Unclosed.ofHeader scope header cs := by
  rw [Unclosed.ofHeader, Unclosed.ofHeader, h.braceBalance_eq, h.contains_eq,
    h.afterOpen.beforeClose.addBody_eq]

/-- **A line says the same with blanks at its end**, whatever is known before it. -/
theorem addLine_eq (s : Scan) (h : Trails cs cs') : s.addLine cs' = s.addLine cs := by
  have hfurther : ∀ u : Unclosed, u.addLine cs' = u.addLine cs := fun u => by
    rw [Unclosed.addLine, Unclosed.addLine, h.braceBalance_eq, h.contains_eq,
      h.beforeClose.addBody_eq]
  simp only [Scan.addLine, hfurther, h.namespaceOf?_eq, h.headerOf?_eq, h.ofHeader_eq]

end Trails

end Bindery.Schema
