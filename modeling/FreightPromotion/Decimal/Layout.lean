import FreightPromotion.Decimal.Shortest

/-!
# Decimal layout

The text formats agree on the digits of a number and differ in how they arrange
them.  A `Layout` holds the decisions of one format.  In every layout a number
keeps a decimal point or an exponent, so that it is read back as a fraction and
not as an integer.
-/

namespace FreightPromotion.Decimal

/-- The decisions of a format about fractions: between which decimal exponents
the digits are written out around the point, and whether a positive exponent
carries a sign. -/
structure Layout where
  lowestPlain : Int
  highestPlain : Int
  signedExponent : Bool

/-- The digits written out around the point. -/
def Scientific.plain (number : Scientific) : List Char :=
  if number.point ≤ 0 then
    ['0', '.'] ++ List.replicate (-number.point).toNat '0' ++ number.digits
  else
    let whole := number.point.toNat
    if number.digits.length ≤ whole then
      number.digits ++ List.replicate (whole - number.digits.length) '0' ++ ['.', '0']
    else
      number.digits.take whole ++ ['.'] ++ number.digits.drop whole

/-- One digit before the point, then the exponent. -/
def Scientific.exponential (signed : Bool) (number : Scientific) : List Char :=
  let exponent := number.point - 1
  let sign := if exponent < 0 then ['-'] else if signed then ['+'] else []
  let fraction :=
    match number.digits.drop 1 with
    | [] => []
    | digits => '.' :: digits
  number.digits.take 1 ++ fraction ++ ['e'] ++ sign ++ Nat.toDigits 10 exponent.natAbs

/-- The magnitude of a number in a layout. -/
def Layout.magnitude (layout : Layout) (number : Scientific) : List Char :=
  let exponent := number.point - 1
  if layout.lowestPlain ≤ exponent ∧ exponent ≤ layout.highestPlain then number.plain
  else number.exponential layout.signedExponent

/-- The text of a finite fraction.  Zero has no significant digit and is written
`0.0`; the sign is that of the fraction, also for zero. -/
def Layout.text (layout : Layout) (value : Float) : String :=
  let bits := value.toBits
  let magnitude := bits % 0x8000000000000000
  let sign := if bits = magnitude then [] else ['-']
  String.ofList <| sign ++
    if magnitude = 0 then ['0', '.', '0'] else layout.magnitude (shortest magnitude)

end FreightPromotion.Decimal
