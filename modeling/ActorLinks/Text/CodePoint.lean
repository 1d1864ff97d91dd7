/-! # Classes of code points

A class is a list of closed ranges of code points in ascending order.
-/
namespace ActorLinks.Text

abbrev CodePointClass := List (Nat × Nat)

def CodePointClass.has (ranges : CodePointClass) (c : Char) : Bool :=
  ranges.any fun r => r.1 ≤ c.toNat && c.toNat ≤ r.2

end ActorLinks.Text
