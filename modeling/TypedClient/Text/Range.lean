/-! Sets of characters given by ranges of code points. -/
namespace TypedClient.Text

/-- A character lies in one of the ranges, whose ends are included. -/
def inRanges (ranges : List (Nat × Nat)) (c : Char) : Bool :=
  ranges.any fun r => r.1 ≤ c.toNat && c.toNat ≤ r.2

end TypedClient.Text
