/-!
# Reading a decimal

A decimal fraction is read with one rounding for the significand and one for the
power of ten.  The significand keeps the leading digits that fit in 64 bits, and
the result is its nearest binary fraction times, or divided by, the binary
fraction nearest to the power of ten.  A power below `10^-308` is divided off in
two or more steps, until the number is zero or the rest of the power is in
range.
-/

namespace FreightPromotion.Decimal

/-- The largest power of ten in one multiplication or division. -/
def largestPower : Nat := 308

/-- The binary fraction nearest to `10^power`. -/
def powerOfTen (power : Nat) : Float :=
  Float.ofScientific 1 false power

/-- Divides by `10^power`, at most `10^308` at a time. -/
def divideByPower (value : Float) (power : Nat) : Float :=
  if power ≤ largestPower then value / powerOfTen power
  else if value == 0.0 then value
  else divideByPower (value / powerOfTen largestPower) (power - largestPower)
termination_by power
decreasing_by simp_all [largestPower]; omega

/-- The number `significand · 10^exponent`, or nothing if it is too large. -/
def magnitude? (significand : UInt64) (exponent : Int) : Option Float :=
  let value := significand.toFloat
  if exponent < 0 then some (divideByPower value exponent.natAbs)
  else if exponent.toNat ≤ largestPower then
    let product := value * powerOfTen exponent.toNat
    if product.isInf then none else some product
  else if value == 0.0 then some value
  else none

end FreightPromotion.Decimal
