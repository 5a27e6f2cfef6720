import Bindery.Proofs.Names.Basic

/-!
# Names that are spelled alike

Pascal case drops the underscores of a name and raises the letter behind each one, and camel
case lowers the first letter again. A digit has no case, so an underscore in front of one
leaves no trace, and neither does an underscore in front of another or at the end: `x_1`,
`x1` and `x__1_` are all `X1`. Names that a description keeps apart may thus meet in the
generated code.

An underscore that no lower-case letter follows is *idle*, and a name without its idle
underscores is condensed (`Naming.condense`). This is all that is lost:

* `pascalCase_condense` — idle underscores do not matter;
* `handleToSnake_pascalCase` — the condensed name can be read back from the Pascal case of a
  name in snake case;
* `pascalCase_eq_iff`, `camelCase_eq_iff` — hence two names in snake case are spelled alike
  exactly when they condense to the same text.
-/

namespace Bindery

namespace Naming

/-! ### Idle underscores -/

/-- The characters without idle underscores. -/
def condenseList : List Char → List Char
  | [] => []
  | c :: cs =>
    if c = '_' ∧ cs.head?.any Char.isLower = false then condenseList cs
    else c :: condenseList cs

/-- **The name without its idle underscores**, those that no lower-case letter follows. -/
def condense (s : String) : String := String.ofList (condenseList s.toList)

theorem ne_underscore_of_isLower {c : Char} (h : c.isLower = true) : c ≠ '_' := by
  rintro rfl
  exact absurd h (by decide)

theorem condenseList_cons_of_ne {c : Char} (h : c ≠ '_') (cs : List Char) :
    condenseList (c :: cs) = c :: condenseList cs := by
  rw [condenseList, if_neg fun hand => h hand.1]

theorem condenseList_idle {cs : List Char} (h : cs.head?.any Char.isLower = false) :
    condenseList ('_' :: cs) = condenseList cs := by
  rw [condenseList, if_pos ⟨rfl, h⟩]

theorem condenseList_lower {c : Char} (h : c.isLower = true) (cs : List Char) :
    condenseList ('_' :: c :: cs) = '_' :: condenseList (c :: cs) := by
  rw [condenseList, if_neg]
  rintro ⟨-, hidle⟩
  rw [List.head?_cons, Option.any_some, h] at hidle
  exact absurd hidle (by decide)

/-! ### Pascal case, character by character -/

/-- The characters of Pascal case. The next one is raised if a word begins with it. -/
def pascalFrom : Bool → List Char → List Char
  | _, [] => []
  | raised, c :: cs =>
    if c = '_' then pascalFrom true cs
    else (if raised then c.toUpper else c) :: pascalFrom false cs

theorem pascalFrom_underscore (raised : Bool) (cs : List Char) :
    pascalFrom raised ('_' :: cs) = pascalFrom true cs := by
  rw [pascalFrom, if_pos rfl]

theorem pascalFrom_cons {c : Char} (h : c ≠ '_') (raised : Bool) (cs : List Char) :
    pascalFrom raised (c :: cs) = (if raised then c.toUpper else c) :: pascalFrom false cs := by
  rw [pascalFrom, if_neg h]

/-- A word with its first character raised. -/
def raiseHead : List Char → List Char
  | [] => []
  | c :: cs => c.toUpper :: cs

theorem toList_upperFirst (s : String) : (upperFirst s).toList = raiseHead s.toList := by
  unfold upperFirst
  cases s.toList with
  | nil => rfl
  | cons c cs => exact String.toList_ofList

/-- Going through the characters gives what cutting, raising and joining gives. The first
piece is a word of its own only if it is to be raised. -/
theorem pascalFrom_eq (cs : List Char) :
    pascalFrom true cs = (cs.splitOn '_').flatMap raiseHead ∧
      ∀ piece pieces, cs.splitOn '_' = piece :: pieces →
        pascalFrom false cs = piece ++ pieces.flatMap raiseHead := by
  -- Both parts at once: where an underscore is read the first takes over, and elsewhere the
  -- second.
  induction cs with
  | nil =>
    refine ⟨rfl, fun piece pieces h => ?_⟩
    obtain ⟨rfl, rfl⟩ := List.cons.inj h
    rfl
  | cons c cs ih =>
    obtain ⟨first, rest, hsplit⟩ := List.exists_cons_of_ne_nil (List.splitOn_ne_nil '_' cs)
    rw [List.splitOn_cons_eq_if_modifyHead, hsplit, List.modifyHead_cons]
    by_cases hc : c = '_'
    · subst hc
      rw [if_pos (beq_self_eq_true '_'), pascalFrom_underscore]
      refine ⟨?_, fun piece pieces h => ?_⟩
      · rw [ih.1, hsplit]
        rfl
      · obtain ⟨rfl, rfl⟩ := List.cons.inj h
        rw [pascalFrom_underscore, ih.1, hsplit]
        rfl
    · rw [if_neg (by simpa using hc), pascalFrom_cons hc]
      refine ⟨?_, fun piece pieces h => ?_⟩
      · rw [ih.2 first rest hsplit]
        rfl
      · obtain ⟨rfl, rfl⟩ := List.cons.inj h
        rw [pascalFrom_cons hc, ih.2 first rest hsplit]
        rfl

/-- **Pascal case, character by character.** -/
theorem toList_pascalCase (s : String) : (pascalCase s).toList = pascalFrom true s.toList := by
  calc (pascalCase s).toList
    _ = ((Text.cut '_' s).map upperFirst).flatMap String.toList := by
      rw [pascalCase, String.toList_join]
    _ = (Text.cutList '_' s.toList).flatMap raiseHead := by
      rw [Text.cut, List.map_map, List.flatMap_map]
      refine List.flatMap_congr fun piece _ => ?_
      rw [Function.comp_apply, toList_upperFirst, String.toList_ofList]
    _ = pascalFrom true s.toList := by
      rw [Text.cutList_eq_splitOn, (pascalFrom_eq s.toList).1]

/-- An underscore in front of a character without case raises nothing. -/
theorem pascalFrom_of_idle {cs : List Char} (h : cs.head?.any Char.isLower = false)
    (raised : Bool) : pascalFrom raised cs = pascalFrom true cs := by
  cases cs with
  | nil => rfl
  | cons c cs =>
    by_cases hc : c = '_'
    · subst hc
      rw [pascalFrom_underscore, pascalFrom_underscore]
    · have hkeep : c.toUpper = c := Char.toUpper_eq_of_not_isLower (by simpa using h)
      rw [pascalFrom_cons hc, pascalFrom_cons hc, hkeep]
      cases raised <;> rfl

theorem pascalFrom_condenseList (raised : Bool) (cs : List Char) :
    pascalFrom raised (condenseList cs) = pascalFrom raised cs := by
  induction cs generalizing raised with
  | nil => rfl
  | cons c cs ih =>
    by_cases hc : c = '_'
    · subst hc
      -- An underscore goes where no small letter is behind it, and there it raises nothing.
      by_cases hidle : cs.head?.any Char.isLower = false
      · rw [condenseList_idle hidle, ih, pascalFrom_underscore, pascalFrom_of_idle hidle]
      · rw [condenseList, if_neg fun hand => hidle hand.2, pascalFrom_underscore,
          pascalFrom_underscore, ih]
    · rw [condenseList_cons_of_ne hc, pascalFrom_cons hc, pascalFrom_cons hc, ih]

/-- **Idle underscores do not matter.** -/
theorem pascalCase_condense (s : String) : pascalCase (condense s) = pascalCase s := by
  apply String.toList_injective
  rw [toList_pascalCase, toList_pascalCase, condense, String.toList_ofList,
    pascalFrom_condenseList]

/-! ### Reading a name back -/

/-- The characters of snake case for one character of Pascal case. -/
def lowered (c : Char) : List Char := if c.isUpper then ['_', c.toLower] else [c]

theorem lowered_of_not_isUpper {c : Char} (h : c.isUpper = false) : lowered c = [c] := by
  rw [lowered, h, if_neg Bool.false_ne_true]

theorem isUpper_toUpper {c : Char} (h : c.isLower = true) : c.toUpper.isUpper = true := by
  simp [Char.isAlpha, h]

/-- No character of snake case is in upper case. -/
theorem isUpper_of_isSnakeTail {c : Char} (h : isSnakeTail c = true) : c.isUpper = false := by
  rw [Char.isUpper, decide_eq_false_iff_not]
  rintro ⟨hge, hle⟩
  simp only [isSnakeTail, Char.isLower, Char.isDigit, Bool.or_eq_true, Bool.and_eq_true,
    decide_eq_true_eq] at h
  rcases h with (hlower | hdigit) | rfl
  · exact absurd (UInt32.le_trans hlower.1 hle) (by decide)
  · exact absurd (UInt32.le_trans hge hdigit.2) (by decide)
  · exact absurd hle (by decide)

theorem toLower_toUpper {c : Char} (h : c.isLower = true) : c.toUpper.toLower = c := by
  have hsmall : c.isUpper = false := isUpper_of_isSnakeTail (by simp [isSnakeTail, h])
  rw [Char.toLower_toUpper_eq_toLower, Char.toLower_eq_of_not_isUpper (by simp [hsmall])]

/-- What goes on in snake case is read back from Pascal case, up to idle underscores. At the
beginning of a word the underscore in front of it is read back as well. -/
theorem flatMap_lowered_pascalFrom {cs : List Char} (h : ∀ c ∈ cs, isSnakeTail c = true) :
    (pascalFrom false cs).flatMap lowered = condenseList cs ∧
      (pascalFrom true cs).flatMap lowered = condenseList ('_' :: cs) := by
  induction cs with
  | nil => exact ⟨rfl, rfl⟩
  | cons c cs ih =>
    obtain ⟨hhead, htail⟩ := List.forall_mem_cons.mp h
    obtain ⟨hplain, hraised⟩ := ih htail
    -- an underscore raises what follows it, and so does a second one
    by_cases hc : c = '_'
    · subst hc
      have hidle : condenseList ('_' :: '_' :: cs) = condenseList ('_' :: cs) :=
        condenseList_idle rfl
      rw [pascalFrom_underscore, pascalFrom_underscore, hidle]
      exact ⟨hraised, hraised⟩
    rw [pascalFrom_cons hc, pascalFrom_cons hc, List.flatMap_cons, List.flatMap_cons, hplain,
      if_neg Bool.false_ne_true, if_pos rfl, condenseList_cons_of_ne hc]
    have hsmall := isUpper_of_isSnakeTail hhead
    rw [lowered_of_not_isUpper hsmall]
    refine ⟨rfl, ?_⟩
    -- only a small letter shows that it has been raised
    by_cases hlower : c.isLower = true
    · rw [condenseList_lower hlower, condenseList_cons_of_ne hc, lowered,
        if_pos (isUpper_toUpper hlower), toLower_toUpper hlower]
      rfl
    · rw [condenseList_idle (by simpa using hlower), condenseList_cons_of_ne hc,
        Char.toUpper_eq_of_not_isLower hlower, lowered_of_not_isUpper hsmall]
      rfl

variable {s t : String}

/-- **The condensed name is read back from Pascal case** as the snake case of a handle is. -/
theorem handleToSnake_pascalCase (h : isSnakeIdentifier s = true) :
    handleToSnake (pascalCase s) = condense s := by
  obtain ⟨c, cs, hs, hlower, hall⟩ := exists_of_isSnakeIdentifier h
  have hc := ne_underscore_of_isLower hlower
  have hpascal : (pascalCase s).toList = c.toUpper :: pascalFrom false cs := by
    rw [toList_pascalCase, hs, pascalFrom_cons hc, if_pos rfl]
  have hback := (flatMap_lowered_pascalFrom hall).1
  rw [handleToSnake, hpascal, condense, hs, condenseList_cons_of_ne hc, ← hback]
  change String.ofList (c.toUpper.toLower :: (pascalFrom false cs).flatMap lowered) = _
  rw [toLower_toUpper hlower]

/-- **Two names in snake case are spelled alike in Pascal case exactly when they condense to
the same text.** -/
theorem pascalCase_eq_iff (hs : isSnakeIdentifier s = true) (ht : isSnakeIdentifier t = true) :
    pascalCase s = pascalCase t ↔ condense s = condense t := by
  constructor
  · intro halike
    rw [← handleToSnake_pascalCase hs, ← handleToSnake_pascalCase ht, halike]
  · intro halike
    rw [← pascalCase_condense s, ← pascalCase_condense t, halike]

/-! ### Camel case -/

/-- A name in snake case keeps its first letter in camel case. -/
theorem exists_toList_camelCase (h : isSnakeIdentifier s = true) :
    ∃ c cs, s.toList = c :: cs ∧ c.isLower = true ∧
      (camelCase s).toList = c :: pascalFrom false cs := by
  obtain ⟨c, cs, hs, hlower, -⟩ := exists_of_isSnakeIdentifier h
  have hc := ne_underscore_of_isLower hlower
  refine ⟨c, cs, hs, hlower, ?_⟩
  rw [camelCase, lowerFirst, toList_pascalCase, hs, pascalFrom_cons hc, if_pos rfl]
  change (String.ofList (c.toUpper.toLower :: pascalFrom false cs)).toList = _
  rw [toLower_toUpper hlower, String.toList_ofList]

/-- Raising the first letter of camel case gives Pascal case. -/
theorem upperFirst_camelCase (h : isSnakeIdentifier s = true) :
    upperFirst (camelCase s) = pascalCase s := by
  obtain ⟨c, cs, hs, hlower, hcamel⟩ := exists_toList_camelCase h
  have hc := ne_underscore_of_isLower hlower
  apply String.toList_injective
  rw [toList_upperFirst, hcamel, toList_pascalCase, hs, pascalFrom_cons hc, if_pos rfl]
  rfl

/-- **Two names in snake case are spelled alike in camel case exactly when they condense to
the same text.** -/
theorem camelCase_eq_iff (hs : isSnakeIdentifier s = true) (ht : isSnakeIdentifier t = true) :
    camelCase s = camelCase t ↔ condense s = condense t := by
  rw [← pascalCase_eq_iff hs ht]
  constructor
  · intro halike
    rw [← upperFirst_camelCase hs, ← upperFirst_camelCase ht, halike]
  · intro halike
    rw [camelCase, camelCase, halike]

theorem underscore_notMem_pascalFrom (raised : Bool) (cs : List Char) :
    '_' ∉ pascalFrom raised cs := by
  induction cs generalizing raised with
  | nil => exact List.not_mem_nil
  | cons c cs ih =>
    by_cases hc : c = '_'
    · subst hc
      rw [pascalFrom_underscore]
      exact ih true
    rw [pascalFrom_cons hc, List.mem_cons, not_or]
    refine ⟨fun heq => ?_, ih false⟩
    -- Only a raised letter differs from what was read, and it is a capital one.
    cases raised with
    | false => exact hc heq.symm
    | true =>
      rw [if_pos rfl] at heq
      by_cases hlower : c.isLower = true
      · have hupper := isUpper_toUpper hlower
        rw [← heq] at hupper
        exact absurd hupper (by decide)
      · rw [Char.toUpper_eq_of_not_isLower hlower] at heq
        exact hc heq.symm

/-- **No underscore is left in camel case.** -/
theorem underscore_notMem_camelCase (h : isSnakeIdentifier s = true) :
    '_' ∉ (camelCase s).toList := by
  obtain ⟨c, cs, -, hlower, hcamel⟩ := exists_toList_camelCase h
  rw [hcamel, List.mem_cons, not_or]
  exact ⟨(ne_underscore_of_isLower hlower).symm, underscore_notMem_pascalFrom false cs⟩

end Naming

end Bindery
