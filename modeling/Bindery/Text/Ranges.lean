/-!
# Sets of characters as lists of boundaries

A set of code points is given by the places where membership changes: the first
code point that belongs to it, the next one that does not, and so on. A code
point is a member when an odd number of boundaries lies at or below it.
-/

namespace Bindery.Text

/-- Whether the number of boundaries at or below `n` is odd. The boundaries are
in ascending order. -/
def withinRanges (n : Nat) : List Nat → Bool
  | [] => false
  | b :: rest => if n < b then false else !withinRanges n rest

@[simp] theorem withinRanges_nil (n : Nat) : withinRanges n [] = false := rfl

/-- Nothing below the first boundary is a member. -/
theorem withinRanges_of_lt {n b : Nat} (h : n < b) (rest : List Nat) :
    withinRanges n (b :: rest) = false := by
  simp [withinRanges, h]

end Bindery.Text
