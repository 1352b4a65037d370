/-! # Ranges of characters -/
namespace QueryLayer.Text

/-- Whether a character is in one of the ranges, both ends included. -/
def inRanges (ranges : List (Nat × Nat)) (c : Char) : Bool :=
  ranges.any fun r => r.1 ≤ c.toNat && c.toNat ≤ r.2

end QueryLayer.Text
