/-!
# Ranges of code points

A class of characters is listed as inclusive ranges of code points in increasing order.
-/

namespace StratumMiner

/-- Inclusive ranges of code points. -/
abbrev CodeRanges := Array (Nat × Nat)

/-- Whether a code point lies in one of the ranges. -/
def CodeRanges.contains (ranges : CodeRanges) (code : Nat) : Bool :=
  ranges.any fun (first, last) => first ≤ code && code ≤ last

end StratumMiner
