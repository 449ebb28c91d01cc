/-!
# Ranges of characters

A property of characters is given by the code points that have it, as closed ranges in ascending
order. A code point is looked up by passing the ranges that end before it (`inRanges`); as the
ranges ascend, it lies in one of them just if it lies in the first one that is left.
-/

namespace TableShell.Text

/-- Closed ranges of code points. -/
abbrev Ranges := List (Nat × Nat)

/-- The number lies in the first of the ranges that does not end before it. -/
def inRanges (n : Nat) : Ranges → Bool
  | [] => false
  | (lo, hi) :: rs => if hi < n then inRanges n rs else lo ≤ n

end TableShell.Text
