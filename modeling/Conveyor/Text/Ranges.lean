/-!
Sets of characters given as ascending ranges of code points, both ends included.
-/

namespace Conveyor.Text

/-- Code point ranges `(first, last)` in ascending order. -/
abbrev CharRanges := List (Nat × Nat)

def CharRanges.contains (rs : CharRanges) (c : Char) : Bool :=
  rs.any fun r => r.1 ≤ c.toNat && c.toNat ≤ r.2

end Conveyor.Text
