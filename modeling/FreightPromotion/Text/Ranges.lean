/-!
# Ranges of characters

A property of characters is given by the code points that have it, as closed
ranges in increasing order.
-/

namespace FreightPromotion.Text

/-- Whether a character lies in one of some ranges. -/
def isWithin (ranges : List (Nat × Nat)) (character : Char) : Bool :=
  ranges.any fun range =>
    decide (range.1 ≤ character.toNat) && decide (character.toNat ≤ range.2)

end FreightPromotion.Text
