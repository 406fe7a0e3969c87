/-!
# Ranges of characters

A class of characters is a list of ranges of code points (`CodeRanges`).
-/

namespace RoutePlan

/-- Code points as ranges, each with its first and its last one. -/
abbrev CodeRanges := List (Nat × Nat)

/-- Whether a character lies in one of the ranges. -/
def CodeRanges.covers (ranges : CodeRanges) (c : Char) : Bool :=
  ranges.any fun (first, last) => first ≤ c.toNat && c.toNat ≤ last

end RoutePlan
