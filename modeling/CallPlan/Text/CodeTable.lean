/-!
# Tables of code points

A property of characters that a standard gives by a table is a list of closed
ranges of code points.
-/

namespace CallPlan.Text

/-- Closed ranges of code points, each by its first and last one. -/
abbrev CodeTable := List (Nat × Nat)

def CodeTable.covers (t : CodeTable) (c : Char) : Bool :=
  t.any fun r => r.1 ≤ c.toNat && c.toNat ≤ r.2

end CallPlan.Text
