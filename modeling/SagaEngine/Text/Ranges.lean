/-! Classes of characters given by closed ranges of code points. -/

namespace SagaEngine.Text

abbrev Ranges := List (Nat × Nat)

def Ranges.contains (ranges : Ranges) (c : Char) : Bool :=
  ranges.any fun r => decide (r.1 ≤ c.toNat ∧ c.toNat ≤ r.2)

end SagaEngine.Text
