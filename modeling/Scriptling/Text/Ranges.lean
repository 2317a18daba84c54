/-!
# Scriptling.Text.Ranges -- sets of code points as sorted ranges

A property of characters is a list of closed ranges, the lowest first. A test walks the list only as far
as the character's own place, so the common characters at the low end are decided at once.
-/

set_option autoImplicit false

namespace Scriptling.Text

/-- Whether `n` lies in one of the ranges, which are disjoint and in increasing order. -/
def inRanges (n : Nat) : List (Nat × Nat) → Bool
  | [] => false
  | (low, high) :: rest => if n < low then false else n ≤ high || inRanges n rest

end Scriptling.Text
