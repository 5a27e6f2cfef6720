import Bindery.Proofs.Wasm.Mentions

/-!
# What a text of C calls

A function of C is called by its name with an opening parenthesis directly behind it. What a
text calls can thus be read off its characters, one after the other, by a reader that keeps the
word it is in (`Code.called`).

The helpers of records are named by what they do, at the end of their names. Whatever else is
called ends in another way, and two characters tell it: no name of a helper is *foreign*. To
know what a text that is put together calls of helpers it is enough to look at its pieces:

* `Inert` — a piece that brings in foreign calls only, whatever it is put behind. Inert pieces
  can be put together as one likes (`Inert.append`), and fixed pieces are checked character by
  character (`inert_ofList`);
* `Harmless` — a piece that begins with a parenthesis, as a cast does, needs something in front
  of it that is no part of a word (`Harmless.append_sealed`);
* `called_append_call` — a call among such pieces.
-/

namespace Bindery

open Schema (isNameTail)

variable {s t : String}

namespace Code

/-! ### The reader -/

/-- What a text calls behind a word, which is kept with its last character first. -/
def calledFrom (word : List Char) : List Char → List String
  | [] => []
  | c :: cs =>
    if c = '(' then String.ofList word.reverse :: calledFrom [] cs
    else calledFrom (if isNameTail c then c :: word else []) cs

/-- The word at the end of a text, last character first. -/
def wordAfter (word : List Char) : List Char → List Char
  | [] => word
  | c :: cs => wordAfter (if isNameTail c then c :: word else []) cs

/-- **What a text calls**: the words directly in front of opening parentheses. In front of the
parenthesis of a cast there is the empty word. -/
def called (text : String) : List String := calledFrom [] text.toList

theorem calledFrom_append (word as bs : List Char) :
    calledFrom word (as ++ bs) = calledFrom word as ++ calledFrom (wordAfter word as) bs := by
  induction as generalizing word with
  | nil => rfl
  | cons c cs ih =>
    rw [List.cons_append, calledFrom, calledFrom, wordAfter]
    by_cases hc : c = '('
    · subst hc
      rw [if_pos rfl, if_pos rfl, ih]
      rfl
    · rw [if_neg hc, if_neg hc, ih]

theorem wordAfter_append (word as bs : List Char) :
    wordAfter word (as ++ bs) = wordAfter (wordAfter word as) bs := by
  induction as generalizing word with
  | nil => rfl
  | cons c cs ih =>
    rw [List.cons_append, wordAfter, wordAfter, ih]

/-- Without parentheses nothing is called. -/
theorem calledFrom_of_not_mem (word : List Char) {cs : List Char} (h : '(' ∉ cs) :
    calledFrom word cs = [] := by
  induction cs generalizing word with
  | nil => rfl
  | cons c cs ih =>
    rw [List.mem_cons, not_or] at h
    rw [calledFrom, if_neg (Ne.symm h.1), ih _ h.2]

/-- A word goes on the word in front of it. -/
theorem wordAfter_of_isNameTail (word : List Char) {cs : List Char}
    (h : ∀ c ∈ cs, isNameTail c = true) : wordAfter word cs = cs.reverse ++ word := by
  induction cs generalizing word with
  | nil => rfl
  | cons c cs ih =>
    obtain ⟨hc, hcs⟩ := List.forall_mem_cons.mp h
    rw [wordAfter, if_pos hc, ih _ hcs, List.reverse_cons, List.append_assoc, List.singleton_append]

end Code

open Code

/-! ### Foreign names -/

/-- **The name is none of a helper**: names of helpers end in `va` or in `se`. -/
structure Foreign (name : String) : Prop where
  java : ¬ ['v', 'a'] <:+ name.toList
  release : ¬ ['s', 'e'] <:+ name.toList

/-- Whether a word is foreign by its last characters, the very last one first. If they are not
the whole word, anything may stand in front of them. -/
def foreignEnd (whole : Bool) : List Char → Bool
  | [] => whole
  | [c] => whole || c != 'a' && c != 'e'
  | c :: d :: _ => !(c == 'a' && d == 'v') && !(c == 'e' && d == 's')

theorem foreign_of_foreignEnd {whole : Bool} {word front : List Char}
    (h : foreignEnd whole word = true) (hfront : whole = true → front = []) :
    Foreign (String.ofList (word ++ front).reverse) := by
  have hends : ¬ ['a', 'v'] <+: word ++ front ∧ ¬ ['e', 's'] <+: word ++ front := by
    -- two characters decide, and one of them may stand in the text before
    match word with
    | [] =>
      rw [hfront h]
      decide
    | [c] =>
      rw [foreignEnd, Bool.or_eq_true, Bool.and_eq_true, bne_iff_ne, bne_iff_ne] at h
      rw [List.singleton_append, List.cons_prefix_cons, List.cons_prefix_cons]
      rcases h with h | ⟨ha, he⟩
      · rw [hfront h]
        simp
      · exact ⟨fun hand => ha hand.1.symm, fun hand => he hand.1.symm⟩
    | c :: d :: rest =>
      simp only [foreignEnd, Bool.and_eq_true, Bool.not_eq_true', Bool.and_eq_false_iff,
        beq_eq_false_iff_ne] at h
      simp only [List.cons_append, List.cons_prefix_cons]
      refine ⟨?_, ?_⟩
      · rintro ⟨rfl, rfl, -⟩
        exact h.1.elim (· rfl) (· rfl)
      · rintro ⟨rfl, rfl, -⟩
        exact h.2.elim (· rfl) (· rfl)
  refine ⟨?_, ?_⟩ <;> rw [String.toList_ofList, ← List.reverse_prefix, List.reverse_reverse]
  · exact hends.1
  · exact hends.2

/-! ### Inert pieces -/

/-- **Only foreign names are called**, whatever the text is put behind. -/
def Inert (text : String) : Prop :=
  ∀ word, ∀ name ∈ calledFrom word text.toList, Foreign name

/-- **Only foreign names are called** by the text alone. -/
def Harmless (text : String) : Prop := ∀ name ∈ called text, Foreign name

/-- **No word is open at the end** of the text. -/
def Sealed (text : String) : Prop := ∀ word, wordAfter word text.toList = []

theorem Inert.harmless (h : Inert s) : Harmless s := h []

theorem Sealed.append (s : String) (h : Sealed t) : Sealed (s ++ t) := by
  intro word
  rw [String.toList_append, wordAfter_append]
  exact h _

theorem Inert.append (hs : Inert s) (ht : Inert t) : Inert (s ++ t) := by
  intro word
  rw [String.toList_append, calledFrom_append, List.forall_mem_append]
  exact ⟨hs word, ht _⟩

theorem Harmless.append (hs : Harmless s) (ht : Inert t) : Harmless (s ++ t) := by
  rw [Harmless, called, String.toList_append, calledFrom_append, List.forall_mem_append]
  exact ⟨hs, ht _⟩

/-- Behind the end of a word the next piece begins as if it were alone. -/
theorem Harmless.append_sealed (hs : Harmless s) (hsealed : Sealed s) (ht : Harmless t) :
    Harmless (s ++ t) := by
  rw [Harmless, called, String.toList_append, calledFrom_append, hsealed, List.forall_mem_append]
  exact ⟨hs, ht⟩

/-- Whether only foreign names are called, by the characters of a text. The word in front is
known to be empty if it is `whole`. -/
def isInert (whole : Bool) (word : List Char) : List Char → Bool
  | [] => true
  | c :: cs =>
    if c = '(' then foreignEnd whole word && isInert true [] cs
    else if isNameTail c then isInert whole (c :: word) cs
    else isInert true [] cs

theorem foreign_of_isInert {whole : Bool} {word front cs : List Char}
    (h : isInert whole word cs = true) (hfront : whole = true → front = []) :
    ∀ name ∈ calledFrom (word ++ front) cs, Foreign name := by
  induction cs generalizing whole word front with
  | nil => exact nofun
  | cons c cs ih =>
    -- behind the end of a word the reader begins anew
    have hanew : isInert true [] cs = true → ∀ name ∈ calledFrom ([] ++ []) cs, Foreign name :=
      fun hcs => ih hcs fun _ => rfl
    rw [isInert] at h
    rw [calledFrom]
    by_cases hc : c = '('
    · rw [if_pos hc, Bool.and_eq_true] at h
      rw [if_pos hc, List.forall_mem_cons]
      exact ⟨foreign_of_foreignEnd h.1 hfront, hanew h.2⟩
    · rw [if_neg hc] at h
      rw [if_neg hc]
      split at h
      · next hword =>
        rw [if_pos hword, ← List.cons_append]
        exact ih h hfront
      · next hword =>
        rw [if_neg hword]
        exact hanew h

/-- **A fixed piece is inert if its characters are.** -/
theorem inert_ofList (cs : List Char) (h : isInert false [] cs = true) :
    Inert (String.ofList cs) := by
  intro word
  rw [String.toList_ofList]
  exact foreign_of_isInert h nofun

theorem harmless_ofList (cs : List Char) (h : isInert true [] cs = true) :
    Harmless (String.ofList cs) := by
  have hall : ∀ name ∈ calledFrom ([] ++ []) cs, Foreign name :=
    foreign_of_isInert h fun _ => rfl
  rw [Harmless, called, String.toList_ofList]
  exact hall

/-- Whether the last character is no part of a word. -/
def isSealed : List Char → Bool
  | [] => false
  | [c] => !isNameTail c
  | _ :: cs => isSealed cs

theorem sealed_ofList (cs : List Char) (h : isSealed cs = true) : Sealed (String.ofList cs) := by
  -- For every word that is being read, as each character makes it longer or starts it anew.
  intro word
  rw [String.toList_ofList]
  induction cs generalizing word with
  | nil => cases h
  | cons c cs ih =>
    rw [wordAfter]
    cases cs with
    | nil =>
      rw [isSealed, Bool.not_eq_true'] at h
      rw [h]
      rfl
    | cons d ds => exact ih h _

/-- **A text without parentheses is inert.** -/
theorem inert_of_not_mem (h : '(' ∉ s.toList) : Inert s := by
  intro word
  rw [calledFrom_of_not_mem word h]
  exact nofun

theorem inert_of_isWord (h : IsWord s) : Inert s := inert_of_not_mem (h.not_mem rfl)

theorem inert_join {pieces : List String} (h : ∀ p ∈ pieces, Inert p) :
    Inert (String.join pieces) := by
  induction pieces with
  | nil => exact inert_ofList _ rfl
  | cons p rest ih =>
    obtain ⟨hp, hrest⟩ := List.forall_mem_cons.mp h
    rw [String.join_cons]
    exact hp.append (ih hrest)

/-- Pieces between commas, each of which may begin with a cast. -/
theorem harmless_commaSep {pieces : List String} (h : ∀ p ∈ pieces, Harmless p) :
    Harmless (Text.commaSep pieces) :=
  Text.commaSep_induction (harmless_ofList _ rfl)
    (fun p _ hp hs =>
      (hp.append (inert_ofList _ rfl)).append_sealed (.append p (sealed_ofList _ rfl)) hs) h

/-! ### Calls -/

/-- **A call of a name**: what stands in front of it calls nothing and opens no word. -/
theorem called_append_call {before name : String} (hbefore : '(' ∉ before.toList)
    (hword : wordAfter [] before.toList = []) (hname : IsWord name) (behind : String) :
    called (before ++ (name ++ ("(" ++ behind))) = name :: called behind := by
  have hparen : "(".toList = ['('] := rfl
  rw [called, String.toList_append, String.toList_append, String.toList_append, calledFrom_append,
    calledFrom_of_not_mem _ hbefore, hword, List.nil_append, calledFrom_append,
    calledFrom_of_not_mem _ (hname.not_mem rfl), wordAfter_of_isNameTail _ hname, hparen,
    List.nil_append, List.append_nil, List.singleton_append, calledFrom, if_pos rfl,
    List.reverse_reverse, String.ofList_toList]
  rfl

example : called "jobject j_to = Dot_to_java(env, &value->to);" = ["Dot_to_java"] := by decide

end Bindery
