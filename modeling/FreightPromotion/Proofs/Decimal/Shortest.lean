import FreightPromotion.Decimal.Shortest
import Mathlib

/-!
# Shortest digits exist

The search for the shortest digits of a binary fraction ends with digits (`normal_shortest`), since
seventeen always suffice.  The fraction is `4 s` quarters of its last place and the interval reaches
two of them in each direction, or one below a power of two.  So on a grid of seventeen digits the
point nearest to the fraction is in the interval (`Interval.Wide.exists_gridPoint`).

How fine the grids are depends on the power of ten that the search starts from, and that must not
be more than the fraction.  The estimate that it comes from takes `30103 / 100000` for the decimal
logarithm of two, which is a little too much, but the one that is subtracted makes up for it over
all exponents (`ten_zpow_estimate_le`).

Where nineteen places stand before the point, seventeen digits do not reach down to the last two
(`shortest_of_large`).
-/

namespace FreightPromotion.Decimal

/-! ## Digits -/

/-- There are digits, and the first one is not zero. -/
structure Scientific.Normal (number : Scientific) : Prop where
  nonempty : number.digits ≠ []
  digits : ∀ digit ∈ number.digits, digit.isDigit = true
  leading : number.digits.head? ≠ some '0'

/-- The digits of a number that is not zero start with another digit than zero. -/
theorem head?_toDigits {number : Nat} (hnumber : 0 < number) :
    (Nat.toDigits 10 number).head? ≠ some '0' := by
  induction number using Nat.strong_induction_on with
  | h number ih =>
      by_cases hsmall : number < 10
      · have hdigit : ∀ digit < 10, 0 < digit → some digit.digitChar ≠ some '0' := by decide
        rw [Nat.toDigits_of_lt_base hsmall]
        exact hdigit number hsmall hnumber
      · have hshorter := ih (number / 10) (by omega) (by omega)
        rw [Nat.toDigits_of_base_le (by decide) (Nat.le_of_not_lt hsmall), List.head?_append]
        cases hdigits : (Nat.toDigits 10 (number / 10)).head? with
        | none => simp [List.head?_eq_none_iff] at hdigits
        | some first => simpa [hdigits] using hshorter

/-- Trimming takes zeros off. -/
theorem exists_trimZeros_append (digits : List Char) :
    ∃ count, digits = trimZeros digits ++ List.replicate count '0' := by
  refine ⟨(digits.reverse.takeWhile (· = '0')).length, ?_⟩
  have hzeros : digits.reverse.takeWhile (· = '0') =
      List.replicate (digits.reverse.takeWhile (· = '0')).length '0' :=
    List.eq_replicate_iff.mpr
      ⟨rfl, fun digit hdigit => by simpa using List.mem_takeWhile_imp hdigit⟩
  rw [trimZeros, ← List.reverse_replicate, ← hzeros, ← List.reverse_append,
    List.takeWhile_append_dropWhile, List.reverse_reverse]

theorem trimZeros_ne_nil {digits : List Char} (hdigits : digits ≠ [])
    (hleading : digits.head? ≠ some '0') : trimZeros digits ≠ [] := by
  intro htrimmed
  rw [trimZeros, List.reverse_eq_nil_iff, List.dropWhile_eq_nil_iff] at htrimmed
  obtain ⟨first, digits, rfl⟩ := List.exists_cons_of_ne_nil hdigits
  refine hleading ?_
  simpa using htrimmed first (by simp)

/-- The multiple `point` of a power of ten. -/
def Scientific.ofPoint (point : Nat) (power : Int) : Scientific :=
  ⟨trimZeros (Nat.toDigits 10 point), power + (Nat.toDigits 10 point).length⟩

theorem normal_ofPoint {point : Nat} (hpoint : 0 < point) (power : Int) :
    (Scientific.ofPoint point power).Normal := by
  have hnonempty : Nat.toDigits 10 point ≠ [] := by simp
  have htrimmed := trimZeros_ne_nil hnonempty (head?_toDigits hpoint)
  obtain ⟨count, hzeros⟩ := exists_trimZeros_append (Nat.toDigits 10 point)
  refine ⟨htrimmed, fun digit hdigit => ?_, fun hzero => ?_⟩
  · have hmember : digit ∈ Nat.toDigits 10 point := hzeros ▸ List.mem_append_left _ hdigit
    exact Nat.isDigit_of_mem_toDigits (by decide) (by decide) hmember
  · refine head?_toDigits hpoint ?_
    rw [Scientific.ofPoint] at hzero
    rw [hzeros, List.head?_append, hzero]
    rfl

/-! ## Units -/

/-- The rational number. -/
def Ratio.value (unit : Ratio) : ℚ :=
  unit.numerator / unit.denominator

theorem Ratio.value_twoPow (exponent : Int) : (Ratio.twoPow exponent).value = 2 ^ exponent := by
  unfold Ratio.twoPow
  split_ifs with hexponent
  · obtain ⟨power, rfl⟩ := Int.eq_ofNat_of_zero_le hexponent
    simp [Ratio.value]
  · obtain ⟨power, rfl⟩ := Int.exists_eq_neg_ofNat (le_of_not_ge hexponent)
    simp [Ratio.value]

theorem Ratio.twoPow_pos (exponent : Int) :
    0 < (Ratio.twoPow exponent).numerator ∧ 0 < (Ratio.twoPow exponent).denominator := by
  unfold Ratio.twoPow
  split_ifs <;> simp

/-- Scaling multiplies each count by the same factor, and the other side is the same for all. -/
theorem Ratio.scaled_eq {unit : Ratio} (hnumerator : 0 < unit.numerator)
    (hdenominator : 0 < unit.denominator) (power : Int) :
    ∃ factor one, 0 < factor ∧ 0 < one ∧
      (∀ count, unit.scaled count power = (count * factor, one)) ∧
      (factor : ℚ) * 10 ^ power = unit.value * one := by
  have hrational : (unit.denominator : ℚ) ≠ 0 := by positivity
  unfold Ratio.scaled
  split_ifs with hpower
  · obtain ⟨power, rfl⟩ := Int.eq_ofNat_of_zero_le hpower
    refine ⟨unit.numerator, Nat.pow 10 power * unit.denominator, hnumerator,
      Nat.mul_pos (Nat.pow_pos (by decide)) hdenominator, fun count => rfl, ?_⟩
    simp [Ratio.value]
    field_simp
  · obtain ⟨power, rfl⟩ := Int.exists_eq_neg_ofNat (le_of_not_ge hpower)
    refine ⟨unit.numerator * Nat.pow 10 power, unit.denominator,
      Nat.mul_pos hnumerator (Nat.pow_pos (by decide)), hdenominator,
      fun count => by simp [Nat.mul_assoc], ?_⟩
    simp [Ratio.value]
    field_simp

/-! ## Leading powers -/

/-- A power of ten is at most so many units. -/
def Ratio.Reaches (unit : Ratio) (count : Nat) (power : Int) : Prop :=
  (10 : ℚ) ^ power ≤ count * unit.value

/-- Reaching a power is counting so many multiples of a lower one. -/
theorem Ratio.reaches_add_iff {unit : Ratio} {factor one : Nat} {power : Int} (hone : 0 < one)
    (hfactor : (factor : ℚ) * 10 ^ power = unit.value * one) (count places : Nat) :
    unit.Reaches count (power + places) ↔ 10 ^ places * one ≤ count * factor := by
  have hpower : (0 : ℚ) < 10 ^ power := by positivity
  have hten : (10 : ℚ) ≠ 0 := by norm_num
  have hrational : (0 : ℚ) < one := by exact_mod_cast hone
  calc
    unit.Reaches count (power + places) ↔
        (10 : ℚ) ^ (power + places) * one ≤ count * unit.value * one :=
      (mul_le_mul_iff_left₀ hrational).symm
    _ ↔ (10 : ℚ) ^ power * (10 ^ places * one) ≤ 10 ^ power * (count * factor) := by
      rw [zpow_add₀ hten, zpow_natCast, mul_assoc, mul_assoc, ← hfactor,
        mul_left_comm _ (count : ℚ), mul_comm (factor : ℚ)]
    _ ↔ ((10 : ℚ) ^ places * one ≤ count * factor) := mul_le_mul_iff_right₀ hpower
    _ ↔ 10 ^ places * one ≤ count * factor := by exact_mod_cast Iff.rfl

/-- Going on from a power that is reached stays with such powers. -/
theorem Ratio.reaches_leadingPower {unit : Ratio} (hnumerator : 0 < unit.numerator)
    (hdenominator : 0 < unit.denominator) {count : Nat} (fuel : Nat) {start : Int}
    (hstart : unit.Reaches count start) :
    unit.Reaches count (unit.leadingPower count fuel start) := by
  induction fuel generalizing start with
  | zero => exact hstart
  | succ fuel ih =>
      rw [Ratio.leadingPower]
      dsimp only
      split_ifs with hnext
      · obtain ⟨factor, one, -, hone, hscaled, hfactor⟩ :=
          Ratio.scaled_eq hnumerator hdenominator (start + 1)
        rw [hscaled] at hnext
        refine ih ?_
        simpa using (Ratio.reaches_add_iff hone hfactor count 0).mpr (by simpa using hnext)
      · exact hstart

/-- It stops at no power below one that is reached. -/
theorem Ratio.le_leadingPower {unit : Ratio} (hnumerator : 0 < unit.numerator)
    (hdenominator : 0 < unit.denominator) {count : Nat} (fuel : Nat) {start power : Int}
    (hpower : unit.Reaches count power) (hfuel : power ≤ start + fuel) :
    power ≤ unit.leadingPower count fuel start := by
  induction fuel generalizing start with
  | zero => simpa [Ratio.leadingPower] using hfuel
  | succ fuel ih =>
      rw [Ratio.leadingPower]
      dsimp only
      split_ifs with hnext
      · exact ih (by omega)
      · by_contra hlater
        obtain ⟨factor, one, -, hone, hscaled, hfactor⟩ :=
          Ratio.scaled_eq hnumerator hdenominator (start + 1)
        rw [hscaled] at hnext
        have hreaches : unit.Reaches count (start + 1 + (0 : Nat)) :=
          (zpow_le_zpow_right₀ (by norm_num) (by omega)).trans hpower
        exact hnext (by simpa using (Ratio.reaches_add_iff hone hfactor count 0).mp hreaches)

theorem log2_mul_two_pow {count : Nat} (hcount : 0 < count) (power : Nat) :
    (count * 2 ^ power).log2 = count.log2 + power := by
  induction power with
  | zero => simp
  | succ power ih =>
      have hscaled : count * 2 ^ power ≠ 0 := by positivity
      rw [Nat.pow_succ, ← Nat.mul_assoc, Nat.log2_eq_log_two,
        Nat.log_mul_base Nat.one_lt_two hscaled, ← Nat.log2_eq_log_two, ih, Nat.add_assoc]

/-- The binary length of a count of units. -/
theorem Ratio.log2_twoPow {count : Nat} (hcount : 0 < count) (exponent : Int) :
    ((count * (Ratio.twoPow exponent).numerator).log2 : Int) -
        (Ratio.twoPow exponent).denominator.log2 = count.log2 + exponent := by
  unfold Ratio.twoPow
  split_ifs with hexponent
  · obtain ⟨power, rfl⟩ := Int.eq_ofNat_of_zero_le hexponent
    have hone : Nat.log2 1 = 0 := rfl
    have hlog : ((count * 2 ^ power).log2 : Int) = count.log2 + power := by
      exact_mod_cast log2_mul_two_pow hcount power
    simpa [hone] using hlog
  · obtain ⟨power, rfl⟩ := Int.exists_eq_neg_ofNat (le_of_not_ge hexponent)
    simp [sub_eq_add_neg]

/-- Comparing powers of ten with powers of two at a fraction `p / q` between the logarithms. -/
theorem ten_zpow_le_two_zpow (p q : Nat) {power exponent : Int} (hq : q ≠ 0)
    (hpower : power * q ≤ p * exponent)
    (hbase : ((10 : ℚ) ^ p) ^ exponent ≤ ((2 : ℚ) ^ q) ^ exponent) :
    (10 : ℚ) ^ power ≤ 2 ^ exponent := by
  refine le_of_pow_le_pow_left₀ hq (by positivity) ?_
  calc
    ((10 : ℚ) ^ power) ^ q = 10 ^ (power * q) := by rw [zpow_mul, zpow_natCast]
    _ ≤ 10 ^ (p * exponent) := zpow_le_zpow_right₀ (by norm_num) hpower
    _ = ((10 : ℚ) ^ p) ^ exponent := by rw [zpow_mul, zpow_natCast]
    _ ≤ ((2 : ℚ) ^ q) ^ exponent := hbase
    _ = ((2 : ℚ) ^ exponent) ^ q := by
        rw [← zpow_natCast, ← zpow_mul, mul_comm, zpow_mul, zpow_natCast]

/-- The estimate is low enough for every exponent of a binary fraction.  Over the positive ones,
three tenths are less than the decimal logarithm of two, and over the negative ones
`28 / 93` are more. -/
theorem ten_zpow_estimate_le {exponent : Int} (hlow : -1100 ≤ exponent) (hhigh : exponent ≤ 1100) :
    (10 : ℚ) ^ ((exponent - 1) * 30103 / 100000 - 1) ≤ 2 ^ exponent := by
  rcases le_or_gt 0 exponent with hpositive | hnegative
  · refine ten_zpow_le_two_zpow 3 10 (by decide) (by omega) ?_
    obtain ⟨exponent, rfl⟩ := Int.eq_ofNat_of_zero_le hpositive
    rw [zpow_natCast, zpow_natCast]
    exact pow_le_pow_left₀ (by norm_num) (by norm_num) exponent
  · refine ten_zpow_le_two_zpow 28 93 (by decide) (by omega) ?_
    obtain ⟨exponent, rfl⟩ := Int.exists_eq_neg_ofNat hnegative.le
    rw [zpow_neg, zpow_neg, zpow_natCast, zpow_natCast]
    exact inv_anti₀ (by positivity) (pow_le_pow_left₀ (by norm_num) (by norm_num) exponent)

/-! ## Grid points -/

/-- In both directions the interval reaches more than half a unit of the seventeenth digit, and it
does not reach down to zero. -/
structure Interval.Wide (interval : Interval) : Prop where
  low_pos : 0 < interval.low
  below : interval.value < 2 * 10 ^ 16 * (interval.value - interval.low)
  above : interval.value < 2 * 10 ^ 16 * (interval.high - interval.value)

theorem Interval.Wide.value_pos {interval : Interval} (hwide : interval.Wide) :
    0 < interval.value := by
  have hlow := hwide.low_pos
  have hbelow := hwide.below
  omega

section Grid

variable {interval : Interval} {power : Int} {factor one point : Nat}

/-- The multiple of `one` that is next to the value, and the even one of two. -/
def nearestMultiple (value one : Nat) : Nat :=
  let below := value / one
  let lower := value - below * one
  let upper := (below + 1) * one - value
  if lower < upper then below
  else if upper < lower then below + 1
  else if below % 2 = 0 then below else below + 1

/-- The multiple lies in the interval. -/
def Interval.covers (interval : Interval) (factor one point : Nat) : Bool :=
  if interval.closed then
    decide (interval.low * factor ≤ point * one ∧ point * one ≤ interval.high * factor)
  else decide (interval.low * factor < point * one ∧ point * one < interval.high * factor)

/-- The nearest multiple is at most half as far from the value as two multiples are from each
other. -/
theorem nearestMultiple_near (value : Nat) (hone : 0 < one) :
    2 * (nearestMultiple value one * one) ≤ 2 * value + one ∧
      2 * value ≤ 2 * (nearestMultiple value one * one) + one := by
  have hbelow : value / one * one ≤ value := Nat.div_mul_le_self value one
  have habove : value < value / one * one + one := Nat.lt_div_mul_add hone
  have hnext : (value / one + 1) * one = value / one * one + one := Nat.succ_mul _ _
  unfold nearestMultiple
  dsimp only
  split_ifs <;> omega

theorem Interval.pos_of_covers (hlow : 0 < interval.low) (hfactor : 0 < factor)
    (hcovers : interval.covers factor one point = true) : 0 < point := by
  have hpositive : 0 < interval.low * factor := Nat.mul_pos hlow hfactor
  have hmultiple : 0 < point * one := by
    unfold covers at hcovers
    split_ifs at hcovers
    · exact hpositive.trans_le (of_decide_eq_true hcovers).1
    · exact hpositive.trans (of_decide_eq_true hcovers).1
  exact Nat.pos_of_mul_pos_right hmultiple

/-- A multiple strictly between the ends lies in the interval, whether the ends do or not. -/
theorem Interval.covers_of_lt (hlow : interval.low * factor < point * one)
    (hhigh : point * one < interval.high * factor) : interval.covers factor one point = true := by
  unfold covers
  split_ifs
  · exact decide_eq_true ⟨hlow.le, hhigh.le⟩
  · exact decide_eq_true ⟨hlow, hhigh⟩

/-- A grid point is a multiple in the interval, and there is one if the nearest multiple is. -/
theorem Interval.gridPoint?_eq
    (hscaled : ∀ count, interval.unit.scaled count power = (count * factor, one)) :
    ∃ other, interval.gridPoint? power =
      if interval.covers factor one (nearestMultiple (interval.value * factor) one) then
        some (nearestMultiple (interval.value * factor) one)
      else if interval.covers factor one other then some other else none := by
  simp only [gridPoint?, hscaled]
  exact ⟨_, rfl⟩

/-- On a grid of seventeen digits there is a point in the interval. -/
theorem Interval.Wide.exists_gridPoint (hwide : interval.Wide)
    (hscaled : ∀ count, interval.unit.scaled count power = (count * factor, one))
    (hfactor : 0 < factor) (hone : 0 < one)
    (hfine : 10 ^ 16 * one ≤ interval.value * factor) :
    ∃ point, interval.gridPoint? power = some point := by
  -- Half a unit of the grid is less than the interval reaches in either direction.
  have hreach : ∀ reach, interval.value < 2 * 10 ^ 16 * reach → one < 2 * (reach * factor) := by
    intro reach hreach
    have hscaled : 10 ^ 16 * one < 10 ^ 16 * (2 * (reach * factor)) := by
      calc
        10 ^ 16 * one ≤ interval.value * factor := hfine
        _ < 2 * 10 ^ 16 * reach * factor := Nat.mul_lt_mul_of_pos_right hreach hfactor
        _ = 10 ^ 16 * (2 * (reach * factor)) := by ring
    exact Nat.lt_of_mul_lt_mul_left hscaled
  have hbelow := hreach _ hwide.below
  have habove := hreach _ hwide.above
  rw [Nat.sub_mul] at hbelow habove
  obtain ⟨hhigh, hlow⟩ := nearestMultiple_near (interval.value * factor) hone
  have hcovers :
      interval.covers factor one (nearestMultiple (interval.value * factor) one) = true :=
    Interval.covers_of_lt (by omega) (by omega)
  obtain ⟨other, hpoint⟩ := Interval.gridPoint?_eq hscaled
  exact ⟨_, hpoint.trans (if_pos hcovers)⟩

theorem Interval.Wide.gridPoint_pos (hwide : interval.Wide)
    (hscaled : ∀ count, interval.unit.scaled count power = (count * factor, one))
    (hfactor : 0 < factor) (hpoint : interval.gridPoint? power = some point) : 0 < point := by
  obtain ⟨other, hchosen⟩ := Interval.gridPoint?_eq hscaled
  rw [hchosen] at hpoint
  split_ifs at hpoint with hcovers hcovers
  · cases hpoint
    exact interval.pos_of_covers hwide.low_pos hfactor hcovers
  · cases hpoint
    exact interval.pos_of_covers hwide.low_pos hfactor hcovers

/-- A point of a grid is not beyond the upper end. -/
theorem Interval.le_high_of_gridPoint (hone : 0 < one)
    (hscaled : ∀ count, interval.unit.scaled count power = (count * factor, one))
    (hfactor : (factor : ℚ) * 10 ^ power = interval.unit.value * one)
    (hpoint : interval.gridPoint? power = some point) :
    (point : ℚ) * 10 ^ power ≤ interval.high * interval.unit.value := by
  have hcovers : interval.covers factor one point = true := by
    obtain ⟨other, hchosen⟩ := Interval.gridPoint?_eq hscaled
    rw [hchosen] at hpoint
    split_ifs at hpoint with hcovers hcovers <;> cases hpoint <;> exact hcovers
  have hhigh : point * one ≤ interval.high * factor := by
    unfold covers at hcovers
    split_ifs at hcovers
    · exact (of_decide_eq_true hcovers).2
    · exact (of_decide_eq_true hcovers).2.le
  have hrational : (0 : ℚ) < one := by exact_mod_cast hone
  refine le_of_mul_le_mul_right ?_ hrational
  calc
    (point : ℚ) * 10 ^ power * one = point * one * 10 ^ power := by ring
    _ ≤ interval.high * factor * 10 ^ power :=
      mul_le_mul_of_nonneg_right (by exact_mod_cast hhigh) (by positivity)
    _ = interval.high * interval.unit.value * one := by rw [mul_assoc, hfactor, mul_assoc]

end Grid

/-! ## The search -/

/-- The decimal is a point of a grid, not finer than one, that lies in the interval. -/
def Interval.Finds (interval : Interval) (least : Int) (number : Scientific) : Prop :=
  ∃ power point, least ≤ power ∧ interval.gridPoint? power = some point ∧
    number = .ofPoint point power

/-- The search ends with a point if one of the grids that it tests has a point in the interval. -/
theorem Interval.finds_search {interval : Interval} {leading : Int} (last : Nat)
    (hlast : ∃ point, interval.gridPoint? (leading - last) = some point) (fuel : Nat) {count : Nat}
    (hcount : count + fuel = last + 1) (hlater : count ≤ last) :
    interval.Finds (leading - last) (interval.search leading fuel count) := by
  induction fuel generalizing count with
  | zero => omega
  | succ fuel ih =>
      rw [Interval.search]
      dsimp only
      cases hpoint : interval.gridPoint? (leading - count) with
      | some point => exact ⟨leading - count, point, by omega, hpoint, rfl⟩
      | none =>
          have hother : count ≠ last := by
            rintro rfl
            obtain ⟨point, hlast⟩ := hlast
            exact absurd (hpoint.symm.trans hlast) (by simp)
          exact ih (by omega) (by omega)

/-! ## Binary fractions -/

/-- The unit is a power of two, and the interval a small one around the value. -/
structure Interval.Binary (interval : Interval) (exponent : Int) : Prop where
  unit : interval.unit = .twoPow exponent
  exponent_ge : -1076 ≤ exponent
  exponent_le : exponent ≤ 970
  value_lt : interval.value < 2 ^ 55
  high_le : interval.high ≤ 2 * interval.value
  wide : interval.Wide

/-- The power of ten that the search starts from. -/
def Interval.leading (interval : Interval) : Int :=
  interval.unit.leadingPower interval.value 4 (interval.unit.powerEstimate interval.value)

section Binary

variable {interval : Interval} {exponent : Int}

theorem Interval.Binary.unit_pos (hbinary : interval.Binary exponent) :
    0 < interval.unit.numerator ∧ 0 < interval.unit.denominator :=
  hbinary.unit ▸ Ratio.twoPow_pos exponent

/-- The estimate is made from the binary length. -/
theorem Interval.Binary.powerEstimate_eq (hbinary : interval.Binary exponent) :
    interval.unit.powerEstimate interval.value =
      (interval.value.log2 + exponent - 1) * 30103 / 100000 - 1 := by
  rw [Ratio.powerEstimate, hbinary.unit, Ratio.log2_twoPow hbinary.wide.value_pos]

/-- The power of ten that the search starts from is at most the fraction. -/
theorem Interval.Binary.reaches_leading (hbinary : interval.Binary exponent) :
    interval.unit.Reaches interval.value interval.leading := by
  obtain ⟨hnumerator, hdenominator⟩ := hbinary.unit_pos
  refine Ratio.reaches_leadingPower hnumerator hdenominator 4 ?_
  have hlow := hbinary.exponent_ge
  have hhigh := hbinary.exponent_le
  have hpos := hbinary.wide.value_pos
  have hlog : interval.value.log2 < 55 := (Nat.log2_lt hpos.ne').mpr hbinary.value_lt
  have htwo : (2 : ℚ) ≠ 0 := by norm_num
  rw [hbinary.powerEstimate_eq, hbinary.unit]
  calc
    (10 : ℚ) ^ ((interval.value.log2 + exponent - 1) * 30103 / 100000 - 1) ≤
        2 ^ (interval.value.log2 + exponent) := ten_zpow_estimate_le (by omega) (by omega)
    _ = 2 ^ interval.value.log2 * 2 ^ exponent := by rw [zpow_add₀ htwo, zpow_natCast]
    _ ≤ interval.value * 2 ^ exponent := by
      gcongr
      exact_mod_cast Nat.log2_self_le hpos.ne'
    _ = interval.value * (Ratio.twoPow exponent).value := by rw [Ratio.value_twoPow]

/-- The search for a fraction that has nineteen digits before its point starts there. -/
theorem Interval.Binary.le_leading (hbinary : interval.Binary exponent)
    (hlarge : (2 : ℚ) ^ 62 ≤ interval.value * interval.unit.value) : 18 ≤ interval.leading := by
  obtain ⟨hnumerator, hdenominator⟩ := hbinary.unit_pos
  have htwo : (2 : ℚ) ≠ 0 := by norm_num
  have hlog : 62 < (interval.value.log2 : Int) + 1 + exponent := by
    rw [← zpow_lt_zpow_iff_right₀ (one_lt_two : (1 : ℚ) < 2)]
    calc
      (2 : ℚ) ^ (62 : Int) ≤ interval.value * interval.unit.value := by exact_mod_cast hlarge
      _ = interval.value * 2 ^ exponent := by rw [hbinary.unit, Ratio.value_twoPow]
      _ < 2 ^ (interval.value.log2 + 1) * 2 ^ exponent := by
        gcongr
        exact_mod_cast Nat.lt_log2_self
      _ = 2 ^ ((interval.value.log2 : Int) + 1 + exponent) := by
        rw [zpow_add₀ htwo _ exponent]
        norm_cast
  refine Ratio.le_leadingPower hnumerator hdenominator 4 (le_trans (by norm_num) hlarge) ?_
  rw [hbinary.powerEstimate_eq]
  omega

/-- The digits end before the seventeenth place after the first. -/
theorem Interval.Binary.finds_search (hbinary : interval.Binary exponent) :
    interval.Finds (interval.leading - 16) (interval.search interval.leading 17 0) := by
  obtain ⟨hnumerator, hdenominator⟩ := hbinary.unit_pos
  refine Interval.finds_search 16 ?_ 17 rfl (by decide)
  obtain ⟨factor, one, hfactor, hone, hscaled, hfine⟩ :=
    Ratio.scaled_eq hnumerator hdenominator (interval.leading - (16 : Nat))
  refine hbinary.wide.exists_gridPoint hscaled hfactor hone
    ((Ratio.reaches_add_iff hone hfine _ 16).mp ?_)
  simpa using hbinary.reaches_leading

end Binary

section Bits

variable {bits : UInt64}

/-- What the bits of a binary fraction say about its interval. -/
theorem Interval.exists_binary (hbits : bits ≠ 0) (hsign : bits.toNat < 2 ^ 63) :
    ∃ exponent, (Interval.ofBits bits).Binary exponent := by
  have hnumber : bits.toNat ≠ 0 := fun hzero => hbits (UInt64.toNat_inj.mp hzero)
  have hstored : bits.toNat / 2 ^ 52 % 2 ^ 11 < 2 ^ 11 := Nat.mod_lt _ (by decide)
  have hmantissa : bits.toNat % 2 ^ 52 < 2 ^ 52 := Nat.mod_lt _ (by decide)
  have hnonzero : bits.toNat / 2 ^ 52 % 2 ^ 11 = 0 → bits.toNat % 2 ^ 52 ≠ 0 := by omega
  have hpow : ∀ exponent, Nat.pow 2 exponent = 2 ^ exponent := fun _ => rfl
  refine ⟨_, rfl, ?_, ?_, ?_, ?_, ?_, ?_, ?_⟩
  all_goals
    simp only [Interval.ofBits, hpow]
    generalize bits.toNat / 2 ^ 52 % 2 ^ 11 = stored at *
    generalize bits.toNat % 2 ^ 52 = mantissa at *
  any_goals split_ifs
  all_goals omega

/-- The shortest digits of a binary fraction that is not zero. -/
theorem normal_shortest (hbits : bits ≠ 0) (hsign : bits.toNat < 2 ^ 63) :
    (shortest bits).Normal := by
  obtain ⟨exponent, hbinary⟩ := Interval.exists_binary hbits hsign
  obtain ⟨hnumerator, hdenominator⟩ := hbinary.unit_pos
  obtain ⟨power, point, -, hpoint, hshortest⟩ := hbinary.finds_search
  obtain ⟨factor, one, hfactor, -, hscaled, -⟩ := Ratio.scaled_eq hnumerator hdenominator power
  have hnormal := normal_ofPoint (hbinary.wide.gridPoint_pos hscaled hfactor hpoint) power
  rwa [← hshortest] at hnormal

/-- The last of at most seventeen digits is no later than the hundreds if there are nineteen places
before the point. -/
theorem shortest_of_large (hbits : bits ≠ 0) (hsign : bits.toNat < 2 ^ 63) :
    ∃ power point, shortest bits = .ofPoint point power ∧
      ((2 : ℚ) ^ 63 ≤ point * 10 ^ power → 2 ≤ power) := by
  obtain ⟨exponent, hbinary⟩ := Interval.exists_binary hbits hsign
  obtain ⟨hnumerator, hdenominator⟩ := hbinary.unit_pos
  obtain ⟨power, point, hleast, hpoint, hshortest⟩ := hbinary.finds_search
  obtain ⟨factor, one, -, hone, hscaled, hfactor⟩ := Ratio.scaled_eq hnumerator hdenominator power
  refine ⟨power, point, hshortest, fun hlarge => ?_⟩
  have hunit : 0 ≤ (Interval.ofBits bits).unit.value := by
    unfold Ratio.value
    positivity
  have hhigh : ((Interval.ofBits bits).high : ℚ) ≤ 2 * (Interval.ofBits bits).value := by
    exact_mod_cast hbinary.high_le
  have hvalue :
      (2 : ℚ) ^ 62 ≤ (Interval.ofBits bits).value * (Interval.ofBits bits).unit.value := by
    have hbounds := hlarge.trans (Interval.le_high_of_gridPoint hone hscaled hfactor hpoint)
    have htwice := hbounds.trans (mul_le_mul_of_nonneg_right hhigh hunit)
    linarith
  have hleading := hbinary.le_leading hvalue
  omega

end Bits

end FreightPromotion.Decimal
