-- SUMMARY: Sets of code points, given as ascending ranges, and membership in them.

/-!
# Code point ranges

A set of characters is written as the ascending list of its maximal ranges, both ends included.
Because the ranges ascend, a look-up stops at the first range that starts above the code point.
-/

namespace Esm.Text

/-- Ascending, disjoint ranges of code points, both ends included. -/
abbrev CodePoints := List (Nat × Nat)

/-- Whether a code point lies in one of the ranges. -/
def CodePoints.has : CodePoints → Nat → Bool
  | [], _ => false
  | (low, high) :: ranges, n => low ≤ n && (n ≤ high || CodePoints.has ranges n)

end Esm.Text
