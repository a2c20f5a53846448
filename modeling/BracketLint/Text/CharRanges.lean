/-! Sets of characters, as the ranges of code points that make them up. -/

namespace BracketLint

/-- Ranges of code points, both ends included. -/
abbrev CharRanges := Array (Nat × Nat)

def CharRanges.contains (ranges : CharRanges) (c : Char) : Bool :=
  ranges.any fun r => r.1 ≤ c.toNat && c.toNat ≤ r.2

end BracketLint
