import FreightPromotion.Proofs.Json.Fractions

/-!
# Integers that are read and printed again

An integer is carried as itself if it fits in 64 bits (`carried_of_inRange`).  Otherwise it is read
as a fraction, and as the digits of a fraction are seventeen at most, it can only be carried as
itself if it ends in two zeros (`hundred_dvd_of_carried`).

What is read from a literal is what the integer is carried as, whatever follows the literal
(`IntegerAt.value_of_readSimple`).
-/

namespace FreightPromotion.Json

open FreightPromotion.Text (Bytes)

/-! ## Integers that fit -/

/-- The number that an integer is printed as after it has been read, or zero if it cannot be
read. -/
def carried (value : Int) : ℚ :=
  match readNumber (0 ≤ value) (decimal value.natAbs) with
  | .ok (number, _) => number.value
  | .error _ => 0

variable {input rest after : Bytes} {number : Number}

/-- An integer that fits is carried unchanged. -/
theorem carried_of_inRange {value : Int} (hrange : InRange value) : carried value = value := by
  obtain ⟨hlow, hhigh⟩ := hrange
  have hfits : value.natAbs < 2 ^ 64 := by omega
  have hread : readNumber (0 ≤ value) (decimal value.natAbs ++ []) =
      .ok (integerOf (0 ≤ value) value.natAbs, []) := readNumber_decimal _ hfits endsNumber_nil
  have hinteger : integerOf (0 ≤ value) value.natAbs = .integer value := by
    have hpow : Nat.pow 2 63 = 2 ^ 63 := rfl
    unfold integerOf
    split_ifs with hsign hlarge
    · rw [Int.natAbs_of_nonneg (of_decide_eq_true hsign)]
    · simp only [decide_eq_true_eq] at hsign
      omega
    · simp only [decide_eq_true_eq] at hsign
      congr 1
      omega
  rw [List.append_nil, hinteger] at hread
  simp [carried, hread, Number.value]

/-! ## Integers that do not fit -/

/-- A fraction is printed as an integer out of range only if that is a multiple of a hundred. -/
theorem hundred_dvd_of_printedValue {value : Int} {fraction : Float}
    (hprinted : Decimal.printedValue fraction = value) (hrange : ¬ InRange value) :
    100 ∣ value := by
  have hlarge : 2 ^ 63 ≤ value.natAbs := by
    unfold InRange at hrange
    omega
  have hbits : (fraction.toBits % 0x8000000000000000).toNat < 2 ^ 63 := by
    rw [UInt64.toNat_mod]
    exact Nat.mod_lt _ (by decide)
  unfold Decimal.printedValue at hprinted
  dsimp only at hprinted
  generalize fraction.toBits % 0x8000000000000000 = magnitude at hprinted hbits
  by_cases hzero : magnitude = 0
  · have hnothing : (value : ℚ) = 0 := by simpa [hzero] using hprinted.symm
    have hvalue : value = 0 := by exact_mod_cast hnothing
    simp [hvalue]
  · rw [if_neg hzero] at hprinted
    -- The sign does not count for the hundreds.
    have hsize : (Decimal.shortest magnitude).value = value ∨
        (Decimal.shortest magnitude).value = -value := by
      split_ifs at hprinted
      · exact .inl hprinted
      · exact .inr (neg_eq_iff_eq_neg.mp hprinted)
    have hsizes : (Decimal.shortest magnitude).value = value.natAbs := by
      rw [Nat.cast_natAbs, Int.cast_abs, ← abs_of_nonneg (Decimal.Scientific.value_nonneg _)]
      exact abs_eq_abs.mpr hsize
    obtain ⟨count, hcount⟩ := Decimal.exists_hundreds hzero hbits
      (by rw [hsizes]; exact_mod_cast hlarge)
    rw [hsizes] at hcount
    have hhundreds : value.natAbs = 100 * count := by exact_mod_cast hcount
    exact Int.natAbs_dvd_natAbs.mp ⟨count, hhundreds⟩

/-- An integer that does not fit is carried unchanged only if it is a multiple of a hundred. -/
theorem hundred_dvd_of_carried {value : Int} (hcarried : carried value = value)
    (hrange : ¬ InRange value) : 100 ∣ value := by
  unfold carried at hcarried
  split at hcarried
  · rename_i number after hread
    cases number with
    | integer found =>
        have hfound : found = value := Rat.intCast_inj.mp hcarried
        exact absurd (hfound ▸ fits_of_readNumber hread) hrange
    | fraction found => exact hundred_dvd_of_printedValue hcarried hrange
  · have hvalue : value = 0 := by exact_mod_cast hcarried.symm
    simp [hvalue]

/-! ## Literals -/

/-- What is read from the digits of an integer does not depend on what follows them. -/
theorem readNumber_append {positive : Bool} {digits : Nat} (hrest : EndsNumber rest)
    (hread : readNumber positive (decimal digits ++ rest) = .ok (number, after)) :
    readNumber positive (decimal digits) = .ok (number, []) := by
  have hdigits := readNumber_digits positive digits endsNumber_nil
  rw [List.append_nil] at hdigits
  rw [readNumber_digits positive digits hrest] at hread
  rw [hdigits]
  unfold finishFraction at hread ⊢
  dsimp only at hread ⊢
  split_ifs at hread ⊢
  · cases hread
    rfl
  · split at hread
    · cases hread
      rfl
    · contradiction

theorem carried_eq {value : Int}
    (hread : readNumber (0 ≤ value) (decimal value.natAbs) = .ok (number, after)) :
    carried value = number.value := by
  rw [carried, hread]

/-- Zero may be read from a minus sign, and is then a fraction. -/
theorem value_readNumber_minus {digits : Nat}
    (hread : readNumber false (decimal digits) = .ok (number, after)) :
    number.value = carried (-digits) := by
  rcases Nat.eq_zero_or_pos digits with rfl | hdigits
  · have hzero : Decimal.printedValue (signed false (Nat.toUInt64 0).toFloat) = 0 := by
      have hbits : (signed false (Nat.toUInt64 0).toFloat).toBits % 0x8000000000000000 = 0 := by
        decide +kernel
      simp only [Decimal.printedValue, hbits, if_true, neg_zero, ite_self]
    have hinteger : readNumber false (decimal 0 ++ []) = .ok (integerOf false 0, []) :=
      readNumber_decimal false (by decide) endsNumber_nil
    rw [List.append_nil, hread] at hinteger
    cases hinteger
    rw [carried_of_inRange (by simp [InRange])]
    exact hzero.trans (by simp)
  · have hsign : decide (0 ≤ (-digits : Int)) = false := by simp; omega
    have hcarried : readNumber (0 ≤ (-digits : Int)) (decimal (-digits : Int).natAbs) =
        .ok (number, after) := by
      rwa [hsign, Int.natAbs_neg, Int.natAbs_natCast]
    exact (carried_eq hcarried).symm

/-- The integer that a literal denotes is read as the number that it is carried as. -/
theorem IntegerAt.value_of_readSimple {byte : UInt8} {value : Int} {found? : Option Value}
    (hinteger : IntegerAt input value after) (hinput : input = byte :: rest) {left : Bytes}
    (hread : readSimple byte rest = .ok (found?, left)) :
    ∃ number : Number, found? = some (.number number) ∧ number.value = carried value := by
  cases hinteger with
  | unsigned digits hends =>
      have hbyte : isDigit byte = true := by
        have hdigits := (areDigits_decimal digits).digitsAt hends.digit
        rw [hinput] at hdigits
        exact hdigits.isDigit_head
      rw [readSimple_of_isDigit hbyte, ← hinput] at hread
      obtain ⟨⟨number, left⟩, hnumber, hpair⟩ := map_eq_ok_iff.mp hread
      cases hpair
      refine ⟨number, rfl, ?_⟩
      have hcarried : readNumber (0 ≤ (digits : Int)) (decimal (digits : Int).natAbs) =
          .ok (number, []) := by
        simpa using readNumber_append hends hnumber
      exact (carried_eq hcarried).symm
  | minus digits hends =>
      cases hinput
      have hminus : Char.ofUInt8 '-'.toUInt8 = '-' := by decide
      simp only [readSimple, hminus] at hread
      obtain ⟨⟨number, left⟩, hnumber, hpair⟩ := map_eq_ok_iff.mp hread
      cases hpair
      exact ⟨number, rfl, value_readNumber_minus (readNumber_append hends hnumber)⟩

end FreightPromotion.Json
