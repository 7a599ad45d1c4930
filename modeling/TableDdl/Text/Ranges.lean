/-!
# Ranges of code points

A class of characters is given by an ascending list of closed ranges of code points.  Looking a
code point up walks the list and stops at the first range that ends at or above it.
-/

namespace TableDdl.Text

/-- Closed ranges `(first, last)` of code points, in ascending order. -/
abbrev Ranges := List (Nat × Nat)

/-- `rs.contains n`: one of the ranges holds `n`.  The order of the ranges lets the walk stop
early. -/
def Ranges.contains : Ranges → Nat → Bool
  | [], _ => false
  | (first, last) :: rest, n =>
      if n ≤ last then decide (first ≤ n) else Ranges.contains rest n

end TableDdl.Text
