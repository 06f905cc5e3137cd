/-!
# Ranges of characters

Properties of characters are tables of ranges of their codes.
-/

namespace BenchHistory.Text

/-- Ranges of codes, each with its first and its last one. -/
abbrev CodeRanges := Array (Nat × Nat)

def CodeRanges.contains (ranges : CodeRanges) (c : Char) : Bool :=
  ranges.any fun r => r.1 ≤ c.toNat && c.toNat ≤ r.2

end BenchHistory.Text
