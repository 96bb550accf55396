/-!
# Ranges of scalar values

A property of scalar values is given as a table of ranges, each by its first and its last value.
-/

namespace ForwardIntake

namespace ScalarRanges

/-- Whether a scalar value lies in one of the ranges of a table. -/
def has (ranges : List (Nat × Nat)) (c : Char) : Bool :=
  ranges.any fun range => range.1 ≤ c.toNat && c.toNat ≤ range.2

end ScalarRanges

end ForwardIntake
