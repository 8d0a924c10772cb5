/-!
# Tables of characters

A class of characters is given by the ranges of its code points, in increasing order.

- `inRanges`: whether a code point lies in one of the ranges.
-/

namespace Kindred.Text

/-- Whether a number lies in one of the ranges, both ends included. The ranges are in increasing
order, so the search ends at the first one that starts behind the number. -/
def inRanges (n : Nat) : List (Nat × Nat) → Bool
  | [] => false
  | (lo, hi) :: rest => if n < lo then false else if n ≤ hi then true else inRanges n rest

end Kindred.Text
