import Bindery.Emit.JavaScript.Prelude
import Bindery.Proofs.Names.Basic

/-!
# Where a text mentions the exports

A module in JavaScript reaches what it exports through one path, `_wasm.exports.`, and all
of its text is put together from fixed pieces and from names. To know that a text does not
mention the path it is not enough that its pieces do not, since the path could come about
where two of them meet.

* `Silent` — a text that neither mentions the path nor can take part in a mention. Silent
  texts can be put together as one likes (`Silent.append`), fixed pieces are checked
  character by character (`silent_ofList`), and names have no dots (`silent_of_isWord`);
* `append_path_inj` — between silent texts the path stands in one place only;
* `Accounted` — a text that is silent, or that mentions the path once and in a known way;
* `exists_call_of_callsIn` — whatever such a text calls is one of the known calls.
-/

namespace Bindery

open Schema (isNameTail)

variable {s t : String}

/-! ### Words -/

/-- **A word**: letters, digits and underscores, or nothing at all. -/
def IsWord (s : String) : Prop := ∀ c ∈ s.toList, isNameTail c = true

instance : Decidable (IsWord s) :=
  decidable_of_iff (s.toList.all isNameTail = true) List.all_eq_true

theorem IsPlain.isWord (h : IsPlain s) : IsWord s := h.all

theorem isWord_of_isPascalIdentifier (h : isPascalIdentifier s = true) : IsWord s := by
  obtain ⟨c, cs, hs, hupper, hall⟩ := exists_of_isPascalIdentifier h
  rw [IsWord, hs, List.forall_mem_cons]
  refine ⟨isNameTail_of_isNameStart (isNameStart_of_isUpper hupper), fun d hd => ?_⟩
  exact isNameTail_of_isAlphanum (hall d hd)

theorem IsWord.append (hs : IsWord s) (ht : IsWord t) : IsWord (s ++ t) := by
  intro c hc
  rw [String.toList_append, List.mem_append] at hc
  exact hc.elim (hs c) (ht c)

theorem IsWord.pascalCase (h : IsWord s) : IsWord (Naming.pascalCase s) := isNameTail_pascalCase h

theorem IsWord.camelCase (h : IsWord s) : IsWord (Naming.camelCase s) := by
  have hpascal := h.pascalCase
  rw [Naming.camelCase, Naming.lowerFirst]
  cases hs : (Naming.pascalCase s).toList with
  | nil => exact nofun
  | cons c cs =>
    rw [IsWord, hs, List.forall_mem_cons] at hpascal
    rw [IsWord, String.toList_ofList, List.forall_mem_cons]
    exact ⟨isNameTail_toLower hpascal.1, hpascal.2⟩

theorem isWord_toString (n : Nat) : IsWord (toString n) := by
  intro c hc
  rw [Nat.toString_eq_repr, Nat.toList_repr] at hc
  have hdigit := Nat.isDigit_of_mem_toDigits (by decide) (by decide) hc
  exact isNameTail_of_isAlphanum (by simp [Char.isAlphanum, hdigit])

theorem IsWord.not_mem (h : IsWord s) {c : Char} (hc : isNameTail c = false) : c ∉ s.toList := by
  intro hmem
  exact absurd (h c hmem) (by simp [hc])

/-! ### Lines of one kind -/

@[simp] theorem Line.text_blank : Line.blank.text = "" := rfl

namespace Code

@[simp] theorem text_comment (text : String) : (comment text).text = "// " ++ text := rfl

/-- The texts of all the lines have a property. -/
def Each (P : String → Prop) (ls : List Line) : Prop := ∀ l ∈ ls, P l.text

variable {P Q : String → Prop}

theorem Each.imp {ls : List Line} (h : Each P ls) (step : ∀ text, P text → Q text) : Each Q ls :=
  fun l hl => step l.text (h l hl)

@[simp] theorem each_nil : Each P [] := nofun

@[simp] theorem each_append {as bs : List Line} : Each P (as ++ bs) ↔ Each P as ∧ Each P bs :=
  List.forall_mem_append

@[simp] theorem each_cons {l : Line} {ls : List Line} :
    Each P (l :: ls) ↔ P l.text ∧ Each P ls :=
  List.forall_mem_cons

@[simp] theorem each_flatMap {α : Type} {f : α → List Line} {xs : List α} :
    Each P (xs.flatMap f) ↔ ∀ x ∈ xs, Each P (f x) :=
  List.forall_mem_flatMap

@[simp] theorem each_lines {texts : List String} : Each P (lines texts) ↔ ∀ t ∈ texts, P t :=
  List.forall_mem_map

@[simp] theorem each_indent {ls : List Line} : Each P (indent ls) ↔ Each P ls :=
  List.forall_mem_map

@[simp] theorem each_enclosed {header close : String} {body : List Line} :
    Each P (enclosed header close body) ↔ P header ∧ Each P body ∧ P close := by
  simp [enclosed]

@[simp] theorem each_blockWith {header close : String} {body : List Line} :
    Each P (blockWith header close body) ↔ P (header ++ " \x7b") ∧ Each P body ∧ P close :=
  each_enclosed

@[simp] theorem each_block {header : String} {body : List Line} :
    Each P (block header body) ↔ P (header ++ " \x7b") ∧ Each P body ∧ P "\x7d" :=
  each_blockWith

end Code

namespace JavaScript

/-! ### Silent texts -/

/-- **A text that is silent about the exports**, alone and next to other such texts. Of the
path it is enough to look at three characters that stand in it once: they do not stand in
the text, and neither end of the text is a part of them that others could complete. -/
structure Silent (s : String) : Prop where
  inside : ¬ ['m', '.', 'e'] <:+: s.toList
  begins : ¬ ['.', 'e'] <+: s.toList
  ends : ¬ ['m', '.'] <:+ s.toList
  alone : s.toList ≠ ['.']

/-- Two characters at the beginning of a text that is put together. -/
theorem pair_prefix_append {x y : Char} {as bs : List Char} (h : [x, y] <+: as ++ bs) :
    [x, y] <+: as ∨ as = [x] ∨ [x, y] <+: bs := by
  match as with
  | [] => exact .inr (.inr h)
  | [a] =>
    rw [List.singleton_append, List.cons_prefix_cons] at h
    exact .inr (.inl (by rw [h.1]))
  | a :: b :: rest =>
    simp only [List.cons_append, List.cons_prefix_cons] at h
    obtain ⟨rfl, rfl, -⟩ := h
    exact .inl ⟨rest, rfl⟩

theorem pair_suffix_append {x y : Char} {as bs : List Char} (h : [x, y] <:+ as ++ bs) :
    [x, y] <:+ as ∨ bs = [y] ∨ [x, y] <:+ bs := by
  rw [← List.reverse_prefix, List.reverse_append] at h
  rcases pair_prefix_append h with h | h | h
  · exact .inr (.inr (List.reverse_prefix.mp h))
  · exact .inr (.inl (by simpa using h))
  · exact .inl (List.reverse_prefix.mp h)

/-- The three characters do not come about where two texts meet. -/
theorem not_infix_append {as bs : List Char} (has : ¬ ['m', '.', 'e'] <:+: as)
    (hbs : ¬ ['m', '.', 'e'] <:+: bs) (hends : ¬ ['m', '.'] <:+ as)
    (hbegins : ¬ ['.', 'e'] <+: bs) : ¬ ['m', '.', 'e'] <:+: as ++ bs := by
  intro h
  rcases List.infix_append_iff.mp h with h | h | ⟨front, back, hmark, hfront, hback⟩
  · exact has h
  · exact hbs h
  · -- by how many of the three stand in the first text
    match front with
    | [] =>
      obtain rfl : back = ['m', '.', 'e'] := hmark.symm
      exact hbs hback.isInfix
    | [_] =>
      obtain ⟨-, rfl⟩ := List.cons.inj hmark
      exact hbegins hback
    | [x, y] =>
      obtain ⟨rfl, rfl, -⟩ : 'm' = x ∧ '.' = y ∧ ['e'] = back := by simpa using hmark
      exact hends hfront
    | x :: y :: z :: rest =>
      obtain ⟨rfl, rfl, rfl, rfl, -⟩ :
          'm' = x ∧ '.' = y ∧ 'e' = z ∧ rest = [] ∧ back = [] := by simpa using hmark
      exact has hfront.isInfix

/-- **Silent texts make silent texts.** -/
theorem Silent.append (hs : Silent s) (ht : Silent t) : Silent (s ++ t) := by
  -- A mark lies within one of the texts, or it spans the border, which the four conditions
  -- exclude.
  refine ⟨?_, ?_, ?_, ?_⟩ <;> rw [String.toList_append]
  · exact not_infix_append hs.inside ht.inside hs.ends ht.begins
  · intro h
    rcases pair_prefix_append h with h | h | h
    · exact hs.begins h
    · exact hs.alone h
    · exact ht.begins h
  · intro h
    rcases pair_suffix_append h with h | h | h
    · exact hs.ends h
    · exact ht.alone h
    · exact ht.ends h
  · intro h
    rcases List.append_eq_singleton_iff.mp h with ⟨-, h⟩ | ⟨h, -⟩
    · exact ht.alone h
    · exact hs.alone h

/-- Whether neither the three characters stand in a text nor the first two at its end. -/
def unmarked : List Char → Bool
  | [] => true
  | c :: cs => (c != 'm' || cs != ['.'] && !(List.isPrefixOf ['.', 'e'] cs)) && unmarked cs

theorem unmarked_iff {cs : List Char} :
    unmarked cs = true ↔ ¬ ['m', '.', 'e'] <:+: cs ∧ ¬ ['m', '.'] <:+ cs := by
  induction cs with
  | nil => simp [unmarked]
  | cons c cs ih =>
    rw [unmarked, Bool.and_eq_true, ih, List.infix_cons_iff, List.suffix_cons_iff,
      List.cons_prefix_cons, List.cons.injEq, eq_comm (a := 'm'), eq_comm (a := ['.'])]
    by_cases hc : c = 'm'
    · simp only [hc, bne_self_eq_false, Bool.false_or, Bool.and_eq_true, bne_iff_ne, ne_eq,
        Bool.not_eq_true', ← Bool.not_eq_true, List.isPrefixOf_iff_prefix, true_and, not_or]
      tauto
    · simp [hc]

/-- Whether a text is silent, by its characters. -/
def isSilent (cs : List Char) : Bool :=
  unmarked cs && cs != ['.'] && !(List.isPrefixOf ['.', 'e'] cs)

/-- **A fixed text is silent if its characters are.** -/
theorem silent_ofList (cs : List Char) (h : isSilent cs = true) : Silent (String.ofList cs) := by
  simp only [isSilent, Bool.and_eq_true, unmarked_iff, bne_iff_ne, Bool.not_eq_true',
    ← Bool.not_eq_true, List.isPrefixOf_iff_prefix] at h
  obtain ⟨⟨⟨hinside, hends⟩, halone⟩, hbegins⟩ := h
  refine ⟨?_, ?_, ?_, ?_⟩ <;> rwa [String.toList_ofList]

/-- **A text without dots is silent.** -/
theorem silent_of_not_mem (h : '.' ∉ s.toList) : Silent s where
  inside hin := h (hin.subset (by simp))
  begins hin := h (hin.subset (by simp))
  ends hin := h (hin.subset (by simp))
  alone heq := h (heq ▸ List.mem_singleton_self '.')

theorem silent_of_isWord (h : IsWord s) : Silent s := silent_of_not_mem (h.not_mem rfl)

/-- Dots are dropped from the name of a type. -/
theorem silent_flatTypeName (s : String) : Silent (Naming.flatTypeName s) := by
  apply silent_of_not_mem
  simp [toList_flatTypeName]

theorem silent_commaSep {pieces : List String} (h : ∀ p ∈ pieces, Silent p) :
    Silent (Text.commaSep pieces) :=
  Text.commaSep_induction (silent_ofList _ rfl)
    (fun _ _ hp hs => (hp.append (silent_ofList _ rfl)).append hs) h

/-! ### The path -/

/-- The path to what the module exports. -/
def exportsPath : String := "_wasm.exports."

/-- **The three characters stand in one place only** if they stand neither before it, its
first two included, nor behind it, its last two included. -/
theorem append_mark_inj {as bs as' bs' : List Char}
    (hbefore : ¬ ['m', '.', 'e'] <:+: as ++ ['m', '.'])
    (hbehind : ¬ ['m', '.', 'e'] <:+: '.' :: 'e' :: bs)
    (h : as ++ ['m', '.', 'e'] ++ bs = as' ++ ['m', '.', 'e'] ++ bs') : as = as' ∧ bs = bs' := by
  rw [List.append_assoc, List.append_assoc, List.append_eq_append_iff] at h
  rcases h with ⟨gap, rfl, h⟩ | ⟨gap, rfl, h⟩
  · -- the second place lies further on
    cases gap with
    | nil => exact ⟨by simp, by simpa using h⟩
    | cons c gap =>
      obtain ⟨-, h⟩ := List.cons.inj h
      refine absurd ⟨gap, bs', ?_⟩ hbehind
      rw [List.append_assoc]
      exact h.symm
  · -- the second place lies further back, so far that the two do not overlap
    match gap with
    | [] => exact ⟨by simp, by simpa using h.symm⟩
    | [_] => simp at h
    | [_, _] => simp at h
    | x :: y :: z :: gap =>
      obtain ⟨rfl, rfl, rfl, -⟩ :
          'm' = x ∧ '.' = y ∧ 'e' = z ∧ bs' = gap ++ 'm' :: '.' :: 'e' :: bs := by simpa using h
      refine absurd ⟨as', gap ++ ['m', '.'], ?_⟩ hbefore
      simp

/-- **Between silent texts the path stands in one place only.** -/
theorem append_path_inj {before behind before' behind' : String} (hbefore : Silent before)
    (hbehind : Silent behind)
    (h : before ++ exportsPath ++ behind = before' ++ exportsPath ++ behind') :
    before = before' ∧ behind = behind' := by
  have hpath : exportsPath.toList = "_was".toList ++ ['m', '.', 'e'] ++ "xports.".toList := by
    decide +kernel
  have hlist : before.toList ++ "_was".toList ++ ['m', '.', 'e']
        ++ ("xports.".toList ++ behind.toList)
      = before'.toList ++ "_was".toList ++ ['m', '.', 'e']
        ++ ("xports.".toList ++ behind'.toList) := by
    simpa only [String.toList_append, hpath, List.append_assoc] using congrArg String.toList h
  -- The path is told by three characters that can stand at one place only.
  have hplace := append_mark_inj ?_ ?_ hlist
  · simpa only [List.append_cancel_right_eq, List.append_cancel_left_eq, String.toList_inj]
      using hplace
  · rw [List.append_assoc]
    exact not_infix_append hbefore.inside (by decide +kernel) hbefore.ends (by decide +kernel)
  · change ¬ ['m', '.', 'e'] <:+: ".exports.".toList ++ behind.toList
    exact not_infix_append (by decide +kernel) hbehind.inside (by decide +kernel) hbehind.begins

/-- A silent text does not mention the path. -/
theorem Silent.ne_append_path (h : Silent s) (before behind : String) :
    s ≠ before ++ exportsPath ++ behind := by
  rintro rfl
  refine h.inside ⟨before.toList ++ "_was".toList, "xports.".toList ++ behind.toList, ?_⟩
  simp [exportsPath]

/-! ### Calls -/

/-- **The text calls the export**: the path, the symbol and an opening parenthesis. -/
def CallsIn (text symbol : String) : Prop :=
  '(' ∉ symbol.toList ∧ ∃ before behind, text = before ++ exportsPath ++ (symbol ++ "(" ++ behind)

theorem ExportCall.text_eq (c : ExportCall) :
    c.text = exportsPath ++ (c.symbol ++ "(" ++ Text.commaSep c.args ++ ")") := by
  rw [← String.append_assoc, ← String.append_assoc, ← String.append_assoc]
  rfl

/-- A call between whose parts the path is not mentioned again. -/
structure ExportCall.Plain (c : ExportCall) : Prop where
  symbol : IsWord c.symbol
  args : ∀ a ∈ c.args, Silent a

/-- **A text whose mentions are accounted for.** -/
inductive Accounted (calls : List ExportCall) : String → Prop where
  /-- There are none. -/
  | silent {text : String} (h : Silent text) : Accounted calls text
  /-- There is one, in a known call. -/
  | call {c : ExportCall} (before behind : String) (known : c ∈ calls) (plain : c.Plain)
      (hbefore : Silent before) (hbehind : Silent behind) :
      Accounted calls (before ++ c.text ++ behind)
  /-- There is one, and nothing is called behind it. -/
  | noCall (before behind : String) (hbefore : Silent before) (hbehind : Silent behind)
      (h : '(' ∉ behind.toList) : Accounted calls (before ++ exportsPath ++ behind)

theorem Accounted.mono {calls calls' : List ExportCall} {text : String}
    (h : Accounted calls text) (hsub : calls ⊆ calls') : Accounted calls' text := by
  cases h with
  | silent h => exact .silent h
  | call before behind known plain hbefore hbehind =>
    exact .call before behind (hsub known) plain hbefore hbehind
  | noCall before behind hbefore hbehind h => exact .noCall before behind hbefore hbehind h

/-- What comes before the first parenthesis. -/
theorem eq_of_append_paren {a b x y : String} (ha : '(' ∉ a.toList) (hb : '(' ∉ b.toList)
    (h : a ++ "(" ++ x = b ++ "(" ++ y) : a = b := by
  have hfirst : ∀ {s : String} (t : String), '(' ∉ s.toList →
      (s ++ "(" ++ t).toList.takeWhile (· ≠ '(') = s.toList := by
    intro s t hs
    rw [String.append_assoc, String.toList_append, List.takeWhile_append_of_pos]
    · simp
    · intro c hc
      exact decide_eq_true fun heq => hs (heq ▸ hc)
  rw [← String.toList_inj, ← hfirst x ha, ← hfirst y hb, h]

/-- **Whatever is called is known.** -/
theorem exists_call_of_callsIn {calls : List ExportCall} {text symbol : String}
    (h : Accounted calls text) (hcalls : CallsIn text symbol) :
    ∃ c ∈ calls, c.symbol = symbol := by
  obtain ⟨hparen, before, behind, htext⟩ := hcalls
  cases h with
  | silent h => exact absurd htext (h.ne_append_path before _)
  | @call c before' behind' known plain hbefore hbehind =>
    refine ⟨c, known, ?_⟩
    -- A call goes on with its symbol and a parenthesis, where the found one does too.
    have hrest : Silent (c.symbol ++ "(" ++ (Text.commaSep c.args ++ ")" ++ behind')) :=
      ((silent_of_isWord plain.symbol).append (silent_ofList _ rfl)).append
        (((silent_commaSep plain.args).append (silent_ofList _ rfl)).append hbehind)
    have hcall : before' ++ c.text ++ behind' = before' ++ exportsPath
        ++ (c.symbol ++ "(" ++ (Text.commaSep c.args ++ ")" ++ behind')) := by
      simp only [c.text_eq, String.append_assoc]
    obtain ⟨-, hplace⟩ := append_path_inj hbefore hrest (hcall.symm.trans htext)
    exact eq_of_append_paren (plain.symbol.not_mem rfl) hparen hplace
  | noCall before' behind' hbefore hbehind h =>
    obtain ⟨-, rfl⟩ := append_path_inj hbefore hbehind htext
    simp at h

end JavaScript

end Bindery
