/-!
# Sets of characters given by ranges

A set is a list of inclusive ranges of code points in increasing order.
-/

namespace GoComplexity.Text

abbrev Ranges := List (Nat × Nat)

/-- Whether the character lies in one of the ranges. -/
def Ranges.has (rs : Ranges) (c : Char) : Bool :=
  rs.any fun r ↦ r.1 ≤ c.toNat && c.toNat ≤ r.2

end GoComplexity.Text
