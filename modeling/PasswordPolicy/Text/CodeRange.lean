/-!
# Sets of characters as runs of code points

**A run** is a pair of code points, both included. Properties of characters that take a table are
lists of runs in ascending order.
-/

namespace PasswordPolicy.Text

/-- The first and the last code point of a run. -/
abbrev CodeRange := Nat × Nat

def inRanges (ranges : List CodeRange) (c : Char) : Bool :=
  ranges.any fun r => r.1 ≤ c.toNat && c.toNat ≤ r.2

end PasswordPolicy.Text
