/-!
# Sets of code points

A set of code points is written as its ranges in increasing order, ends included.
-/

namespace VgmPlayback.Text

abbrev CodePoints := List (Nat × Nat)

/-- The code point lies in one of the ranges. -/
def CodePoints.has (ranges : CodePoints) (c : Nat) : Bool :=
  ranges.any fun r => r.1 ≤ c && c ≤ r.2

end VgmPlayback.Text
