/-!
# Sets of code points

A set of code points as a list of closed ranges.
-/

namespace AndroidBoot

abbrev CodeRanges := List (Nat × Nat)

/-- Whether one of the ranges holds `c`. -/
def CodeRanges.holds (ranges : CodeRanges) (c : Char) : Bool :=
  ranges.any fun (first, last) => first ≤ c.toNat && c.toNat ≤ last

end AndroidBoot
