import Bindery.Proofs.Names.Description

/-!
# The names of operations

A description asks for snake case wherever it names an interface, a constructor or a method.
Nobody writes the name of a destructor: it is made of the handle, which is in Pascal case. Snake
case of a handle is snake case in the sense of the shape too, so no operation is an exception:

* `isSnakeIdentifier_handleToSnake` — a handle in snake case is a name in snake case;
* `isSnakeIdentifier_of_mem_operations` — hence the name of every operation is one.
-/

namespace Bindery

open Naming

variable {s t : String}

theorem isSnakeIdentifier_iff :
    isSnakeIdentifier s = true ↔
      ∃ c cs, s.toList = c :: cs ∧ c.isLower = true ∧ ∀ d ∈ cs, isSnakeTail d = true := by
  refine ⟨exists_of_isSnakeIdentifier, ?_⟩
  rintro ⟨c, cs, hs, hlower, hall⟩
  unfold isSnakeIdentifier
  rw [hs]
  change (c.isLower && cs.all isSnakeTail) = true
  rw [hlower, Bool.true_and, List.all_eq_true]
  exact hall

theorem isSnakeTail_of_isLower {c : Char} (h : c.isLower = true) : isSnakeTail c = true := by
  rw [isSnakeTail, h, Bool.true_or, Bool.true_or]

/-- All characters of a name in snake case may follow its first one. -/
theorem isSnakeTail_of_mem (h : isSnakeIdentifier s = true) :
    ∀ c ∈ s.toList, isSnakeTail c = true := by
  obtain ⟨c, cs, hs, hlower, hall⟩ := isSnakeIdentifier_iff.mp h
  rw [hs, List.forall_mem_cons]
  exact ⟨isSnakeTail_of_isLower hlower, hall⟩

/-- Something is put behind a name. -/
theorem isSnakeIdentifier_append (h : isSnakeIdentifier s = true)
    (ht : ∀ c ∈ t.toList, isSnakeTail c = true) : isSnakeIdentifier (s ++ t) = true := by
  obtain ⟨c, cs, hs, hlower, hall⟩ := isSnakeIdentifier_iff.mp h
  refine isSnakeIdentifier_iff.mpr ⟨c, cs ++ t.toList, ?_, hlower, fun d hd => ?_⟩
  · rw [String.toList_append, hs, List.cons_append]
  · exact (List.mem_append.mp hd).elim (hall d) (ht d)

/-- A letter or a digit of Pascal case, in snake case. -/
theorem isSnakeTail_of_mem_lowered {c d : Char} (h : c.isAlphanum = true)
    (hd : d ∈ if c.isUpper then ['_', c.toLower] else [c]) : isSnakeTail d = true := by
  by_cases hupper : c.isUpper = true
  · rw [if_pos hupper] at hd
    rcases List.mem_pair.mp hd with rfl | rfl
    · rfl
    · exact isSnakeTail_of_isLower (by simp [Char.isAlpha, hupper])
  · rw [if_neg hupper, List.mem_singleton] at hd
    subst hd
    -- what is no letter in upper case is one in lower case, or a digit
    rw [Char.isAlphanum, Char.isAlpha, Bool.eq_false_iff.mpr hupper, Bool.false_or,
      Bool.or_eq_true] at h
    rw [isSnakeTail, Bool.or_eq_true, Bool.or_eq_true]
    exact .inl h

/-- **A handle in snake case is a name in snake case.** -/
theorem isSnakeIdentifier_handleToSnake (h : isPascalIdentifier s = true) :
    isSnakeIdentifier (handleToSnake s) = true := by
  obtain ⟨c, cs, hs, hupper, hall⟩ := exists_of_isPascalIdentifier h
  rw [handleToSnake, hs, isSnakeIdentifier_iff]
  refine ⟨_, _, String.toList_ofList, by simp [Char.isAlpha, hupper], fun d hd => ?_⟩
  obtain ⟨e, he, hd⟩ := List.mem_flatMap.mp hd
  exact isSnakeTail_of_mem_lowered (hall e he) hd

theorem isSnakeIdentifier_destructorName (h : isPascalIdentifier s = true) :
    isSnakeIdentifier (destructorName s) = true :=
  isSnakeIdentifier_append (by decide) (isSnakeTail_of_mem (isSnakeIdentifier_handleToSnake h))

/-- **The name of every operation is in snake case**, those of destructors included. -/
theorem isSnakeIdentifier_of_mem_operations {i : Interface} (h : i.SnakeNamed) {op : Operation}
    (hop : op ∈ i.operations) : isSnakeIdentifier op.method.name = true := by
  rcases mem_operations_iff.mp hop with ⟨c, hc, rfl⟩ | ⟨handle, hhandle, rfl⟩ | ⟨m, hm, rfl⟩
  · exact (h.constructors c hc).name
  · -- the handle is read off a constructor, and only Pascal case is read as a handle
    obtain ⟨c, -, hreturned⟩ := Option.bind_eq_some_iff.mp hhandle
    exact isSnakeIdentifier_destructorName (Validate.returnedHandle?_eq_some_iff.mp hreturned).2
  · exact (h.methods m hm).name

theorem Api.SnakeNamed.of_mem_operations {a : Api} (h : a.SnakeNamed) {op : Operation}
    (hop : op ∈ a.operations) : isSnakeIdentifier op.method.name = true := by
  obtain ⟨i, hi, hop⟩ := List.mem_flatMap.mp hop
  exact isSnakeIdentifier_of_mem_operations (h.interfaces i hi) hop

end Bindery
