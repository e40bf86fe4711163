/-!
# Intervals of Code Points

A property of characters that a standard fixes by listing code points. The
list is kept as closed intervals, and a character has the property when one of
them holds its code point.

## Main definitions

* `CodePoint.covered`: A character lies in one of the listed intervals.
* `CodePoint.count`: How many code points disjoint intervals list.
-/

namespace SyntheticAccess

namespace CodePoint

/-- Whether the code point of a character lies in one of the closed intervals. -/
def covered (intervals : List (Nat × Nat)) (c : Char) : Bool :=
  intervals.any fun i => decide (i.1 ≤ c.toNat) && decide (c.toNat ≤ i.2)

/-- The number of code points in intervals that do not overlap. -/
def count (intervals : List (Nat × Nat)) : Nat :=
  intervals.foldl (fun n i => n + (i.2 + 1 - i.1)) 0

end CodePoint

end SyntheticAccess
