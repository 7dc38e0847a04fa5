/-!
# Ranges of code points

A property of characters is given by the ranges of the code points that have it.
-/

namespace TypedSql.Text

/-- Code points from a first to a last one, both included. -/
abbrev CodePointRange := Nat × Nat

/-- A character lies in one of some ranges. -/
def inRanges (ranges : List CodePointRange) (c : Char) : Bool :=
  ranges.any fun r => r.1 ≤ c.toNat && c.toNat ≤ r.2

end TypedSql.Text
