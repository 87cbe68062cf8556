/-!
# Shortest decimal digits

A finite binary fraction stands for every real number that rounds to it.  Its
shortest decimal form is the number with the fewest significant digits among
those, and of several with equally many digits the one nearest to the fraction
itself.

## Strategy

The fraction is `m · 2^q`.  The reals that round to it form an interval around
it, whose ends belong to it exactly when `m` is even.  If the grid of multiples
of `10^e` has a point in the interval, then one of the two grid points next to
the fraction lies in it.  So it is enough to test these two neighbours for one
digit, two digits, and so on; seventeen digits always suffice.  All of it is
exact arithmetic on natural numbers.
-/

namespace FreightPromotion.Decimal

/-- A positive decimal `0.d₁d₂… · 10^point`: the digits without leading or
trailing zeros, and the place of the point counted from their left end. -/
structure Scientific where
  digits : List Char
  point : Int
deriving DecidableEq, Repr

/-- A positive rational number, not necessarily in lowest terms. -/
structure Ratio where
  numerator : Nat
  denominator : Nat

/-- The interval of reals that round to a binary fraction, as multiples of a
common unit: its value, its two ends, and whether the ends belong to it. -/
structure Interval where
  unit : Ratio
  low : Nat
  value : Nat
  high : Nat
  closed : Bool

/-- The unit `2^exponent`. -/
def Ratio.twoPow (exponent : Int) : Ratio :=
  if exponent ≥ 0 then ⟨Nat.pow 2 exponent.toNat, 1⟩ else ⟨1, Nat.pow 2 (-exponent).toNat⟩

/-- The interval of the fraction with the given bits, sign ignored.  Quarters of
the last place are the unit, since the lower half of the interval is half as
long when the fraction is a power of two. -/
def Interval.ofBits (bits : UInt64) : Interval :=
  let stored := bits.toNat / Nat.pow 2 52 % Nat.pow 2 11
  let mantissa := bits.toNat % Nat.pow 2 52
  let significand := if stored = 0 then mantissa else mantissa + Nat.pow 2 52
  let exponent : Int := (max stored 1 : Nat) - 1075
  let narrow := mantissa = 0 ∧ stored > 1
  { unit := .twoPow (exponent - 2)
    low := 4 * significand - (if narrow then 1 else 2)
    value := 4 * significand
    high := 4 * significand + 2
    closed := significand % 2 = 0 }

/-- Compares `count` units with `10^power`: the two sides cleared of fractions. -/
def Ratio.scaled (unit : Ratio) (count : Nat) (power : Int) : Nat × Nat :=
  if power ≥ 0 then (count * unit.numerator, Nat.pow 10 power.toNat * unit.denominator)
  else (count * unit.numerator * Nat.pow 10 (-power).toNat, unit.denominator)

/-- The largest `power` below `start + fuel` for which `10^power` is at most
`count` units, provided `10^start` is. -/
def Ratio.leadingPower (unit : Ratio) (count : Nat) : Nat → Int → Int
  | 0, start => start
  | fuel + 1, start =>
    let (left, right) := unit.scaled count (start + 1)
    if right ≤ left then unit.leadingPower count fuel (start + 1) else start

/-- A lower bound of the decimal exponent of `count` units, one or two too small
at most: the binary length times `log₁₀ 2`, rounded down. -/
def Ratio.powerEstimate (unit : Ratio) (count : Nat) : Int :=
  let binary : Int := (count * unit.numerator).log2 - unit.denominator.log2
  (binary - 1) * 30103 / 100000 - 1

/-- Of the two multiples of `10^power` next to the value, the one that lies in
the interval; the nearer one if both do, and the even one if they are equally
near. -/
def Interval.gridPoint? (interval : Interval) (power : Int) : Option Nat :=
  let (value, one) := interval.unit.scaled interval.value power
  let (low, _) := interval.unit.scaled interval.low power
  let (high, _) := interval.unit.scaled interval.high power
  let below := value / one
  let inside (point : Nat) : Bool :=
    if interval.closed then decide (low ≤ point * one ∧ point * one ≤ high)
    else decide (low < point * one ∧ point * one < high)
  let lower := value - below * one
  let upper := (below + 1) * one - value
  let chosen :=
    if lower < upper then below
    else if upper < lower then below + 1
    else if below % 2 = 0 then below else below + 1
  let other := if chosen = below then below + 1 else below
  if inside chosen then some chosen
  else if inside other then some other
  else none

/-- The digits of a grid point without its trailing zeros. -/
def trimZeros (digits : List Char) : List Char :=
  (digits.reverse.dropWhile (· = '0')).reverse

/-- Tests grids with `count + 1`, `count + 2`, … digits, `fuel` of them. -/
def Interval.search (interval : Interval) (leading : Int) : Nat → Nat → Scientific
  | 0, _ => ⟨[], 0⟩
  | fuel + 1, count =>
    let power := leading - count
    match interval.gridPoint? power with
    | some point =>
      let digits := Nat.toDigits 10 point
      ⟨trimZeros digits, power + digits.length⟩
    | none => interval.search leading fuel (count + 1)

/-- The shortest decimal form of the magnitude of a finite fraction other than
zero, given by its bits. -/
def shortest (bits : UInt64) : Scientific :=
  let interval := Interval.ofBits bits
  let start := interval.unit.powerEstimate interval.value
  interval.search (interval.unit.leadingPower interval.value 4 start) 17 0

end FreightPromotion.Decimal
