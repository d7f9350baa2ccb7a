/-!
# Ranges of code points

A set of characters as closed ranges of code points, ascending and apart.
-/

namespace LootFilter.Text

abbrev CodeRanges := List (Nat × Nat)

/-- Whether a code point lies in one of the ranges; the search ends at the first range above it. -/
def CodeRanges.covers : CodeRanges → Nat → Bool
  | [], _ => false
  | (low, high) :: rest, n => if n < low then false else if n ≤ high then true else covers rest n

end LootFilter.Text
