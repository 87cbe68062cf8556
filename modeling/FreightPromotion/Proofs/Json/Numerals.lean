import FreightPromotion.Proofs.Json.Numbers

/-!
# Numerals

A numeral is a whole part without a needless zero, then digits after a point or none, then an
exponent or none, and it may have a minus sign before it.  `NumeralAt` says which rational number it
denotes, without rounding and whatever the number of digits.  The number is determined by the input
(`NumeralAt.unique`), and a numeral ends where a number is passed over (`NumeralAt.passes`).

The literal of an integer is the numeral that has digits only (`IntegerAt.numeralAt`).
-/

namespace FreightPromotion.Json

open FreightPromotion.Text (Bytes)

/-! ## Runs of digits -/

/-- Digits, at least one. -/
def AreDigits (digits : Bytes) : Prop :=
  digits ≠ [] ∧ ∀ byte ∈ digits, isDigit byte = true

/-- The digits at the start of the input, and what follows them. -/
structure DigitsAt (input digits after : Bytes) : Prop where
  nonempty : digits ≠ []
  taken : input.takeWhile isDigit = digits
  left : input.dropWhile isDigit = after

section Digits

variable {input digits after : Bytes}

theorem AreDigits.digitsAt (hdigits : AreDigits digits)
    (hafter : ∀ byte ∈ after.head?, isDigit byte = false) :
    DigitsAt (digits ++ after) digits after :=
  have hspan := span_isDigit hdigits.2 hafter
  ⟨hdigits.1, hspan.1, hspan.2⟩

theorem DigitsAt.unique {otherDigits other : Bytes} (hdigits : DigitsAt input digits after)
    (hother : DigitsAt input otherDigits other) : digits = otherDigits ∧ after = other :=
  ⟨hdigits.taken.symm.trans hother.taken, hdigits.left.symm.trans hother.left⟩

/-- No digit follows. -/
theorem DigitsAt.ends (hdigits : DigitsAt input digits after) :
    ∀ byte ∈ after.head?, ¬ isDigit byte = true :=
  hdigits.left ▸ head?_dropWhile_isDigit input

theorem DigitsAt.exists_cons (hdigits : DigitsAt input digits after) :
    ∃ byte rest, input = byte :: rest ∧ isDigit byte = true ∧
      digits = byte :: rest.takeWhile isDigit ∧ after = rest.dropWhile isDigit := by
  obtain ⟨hnonempty, rfl, rfl⟩ := hdigits
  cases input with
  | nil => contradiction
  | cons byte rest =>
      cases hbyte : isDigit byte with
      | false => simp [hbyte] at hnonempty
      | true =>
          exact ⟨byte, rest, rfl, hbyte, List.takeWhile_cons_of_pos hbyte,
            List.dropWhile_cons_of_pos hbyte⟩

theorem DigitsAt.isDigit_head {byte : UInt8} (hdigits : DigitsAt (byte :: input) digits after) :
    isDigit byte = true := by
  obtain ⟨first, rest, hinput, hfirst, -⟩ := hdigits.exists_cons
  cases hinput
  exact hfirst

end Digits

/-! ## Parts of a numeral -/

/-- The digits after a point, or none without one. -/
inductive FractionAt : Bytes → Bytes → Bytes → Prop
  | none {input : Bytes} (hpoint : input.head? ≠ some '.'.toUInt8) : FractionAt input [] input
  | some {input digits after : Bytes} (hdigits : DigitsAt input digits after) :
      FractionAt ('.'.toUInt8 :: input) digits after

/-- The number after the letter of an exponent, with a sign or without one. -/
inductive ScaleAt : Bytes → Int → Bytes → Prop
  | unsigned {input digits after : Bytes} (hdigits : DigitsAt input digits after) :
      ScaleAt input (digitSum 0 digits) after
  | plus {input digits after : Bytes} (hdigits : DigitsAt input digits after) :
      ScaleAt ('+'.toUInt8 :: input) (digitSum 0 digits) after
  | minus {input digits after : Bytes} (hdigits : DigitsAt input digits after) :
      ScaleAt ('-'.toUInt8 :: input) (-digitSum 0 digits) after

/-- An exponent, or zero without one. -/
inductive ExponentAt : Bytes → Int → Bytes → Prop
  | none {input : Bytes}
      (hletter : ∀ byte ∈ input.head?, ¬ (byte = 'e'.toUInt8 ∨ byte = 'E'.toUInt8)) :
      ExponentAt input 0 input
  | some {input after : Bytes} {letter : UInt8} {exponent : Int}
      (hletter : letter = 'e'.toUInt8 ∨ letter = 'E'.toUInt8)
      (hscale : ScaleAt input exponent after) : ExponentAt (letter :: input) exponent after

/-- A numeral after its sign, and the number that it denotes: the sum of all its digits, with the
point moved by the exponent. -/
inductive MagnitudeAt : Bytes → ℚ → Bytes → Prop
  | mk {input middle beyond after whole fraction : Bytes} {exponent : Int}
      (hwhole : DigitsAt input whole middle)
      (hleading : whole.head? = some '0'.toUInt8 → whole = ['0'.toUInt8])
      (hfraction : FractionAt middle fraction beyond)
      (hexponent : ExponentAt beyond exponent after) :
      MagnitudeAt input (digitSum 0 (whole ++ fraction) * 10 ^ (exponent - fraction.length)) after

/-- A numeral, the number that it denotes, and what follows it. -/
inductive NumeralAt : Bytes → ℚ → Bytes → Prop
  | unsigned {input after : Bytes} {value : ℚ} (hmagnitude : MagnitudeAt input value after) :
      NumeralAt input value after
  | minus {input after : Bytes} {value : ℚ} (hmagnitude : MagnitudeAt input value after) :
      NumeralAt ('-'.toUInt8 :: input) (-value) after

/-! ## Numerals are determined by the input -/

section Unique

variable {input after other : Bytes}

theorem FractionAt.unique {digits otherDigits : Bytes} (hfraction : FractionAt input digits after)
    (hother : FractionAt input otherDigits other) : digits = otherDigits ∧ after = other := by
  cases hfraction with
  | none hpoint =>
      cases hother with
      | none => exact ⟨rfl, rfl⟩
      | some => exact absurd rfl hpoint
  | some hdigits =>
      cases hother with
      | none hpoint => exact absurd rfl hpoint
      | some hdigits' => exact hdigits.unique hdigits'

theorem ScaleAt.unique {exponent otherExponent : Int} (hscale : ScaleAt input exponent after)
    (hother : ScaleAt input otherExponent other) : exponent = otherExponent ∧ after = other := by
  -- A sign is not a digit.
  cases hscale with
  | unsigned hdigits =>
      cases hother with
      | unsigned hdigits' =>
          obtain ⟨rfl, rfl⟩ := hdigits.unique hdigits'
          exact ⟨rfl, rfl⟩
      | plus => exact absurd hdigits.isDigit_head (by decide)
      | minus => exact absurd hdigits.isDigit_head (by decide)
  | plus hdigits =>
      cases hother with
      | unsigned hdigits' => exact absurd hdigits'.isDigit_head (by decide)
      | plus hdigits' =>
          obtain ⟨rfl, rfl⟩ := hdigits.unique hdigits'
          exact ⟨rfl, rfl⟩
  | minus hdigits =>
      cases hother with
      | unsigned hdigits' => exact absurd hdigits'.isDigit_head (by decide)
      | minus hdigits' =>
          obtain ⟨rfl, rfl⟩ := hdigits.unique hdigits'
          exact ⟨rfl, rfl⟩

theorem ExponentAt.unique {exponent otherExponent : Int}
    (hexponent : ExponentAt input exponent after)
    (hother : ExponentAt input otherExponent other) : exponent = otherExponent ∧ after = other := by
  cases hexponent with
  | none hletter =>
      cases hother with
      | none => exact ⟨rfl, rfl⟩
      | some hletter' => exact absurd hletter' (hletter _ rfl)
  | some hletter hscale =>
      cases hother with
      | none hletter' => exact absurd hletter (hletter' _ rfl)
      | some _ hscale' => exact hscale.unique hscale'

theorem MagnitudeAt.unique {value otherValue : ℚ} (hmagnitude : MagnitudeAt input value after)
    (hother : MagnitudeAt input otherValue other) : value = otherValue ∧ after = other := by
  obtain ⟨hwhole, -, hfraction, hexponent⟩ := hmagnitude
  obtain ⟨hwhole', -, hfraction', hexponent'⟩ := hother
  obtain ⟨rfl, rfl⟩ := hwhole.unique hwhole'
  obtain ⟨rfl, rfl⟩ := hfraction.unique hfraction'
  obtain ⟨rfl, rfl⟩ := hexponent.unique hexponent'
  exact ⟨rfl, rfl⟩

theorem MagnitudeAt.isDigit_head {byte : UInt8} {value : ℚ}
    (hmagnitude : MagnitudeAt (byte :: input) value after) : isDigit byte = true := by
  obtain ⟨hwhole, -, -, -⟩ := hmagnitude
  exact hwhole.isDigit_head

/-- The number that a numeral denotes is determined by the input. -/
theorem NumeralAt.unique {value otherValue : ℚ} (hnumeral : NumeralAt input value after)
    (hother : NumeralAt input otherValue other) : value = otherValue ∧ after = other := by
  cases hnumeral with
  | unsigned hmagnitude =>
      cases hother with
      | unsigned hmagnitude' => exact hmagnitude.unique hmagnitude'
      | minus => exact absurd hmagnitude.isDigit_head (by decide)
  | minus hmagnitude =>
      cases hother with
      | unsigned hmagnitude' => exact absurd hmagnitude'.isDigit_head (by decide)
      | minus hmagnitude' =>
          obtain ⟨rfl, rfl⟩ := hmagnitude.unique hmagnitude'
          exact ⟨rfl, rfl⟩

end Unique

/-! ## Passing over numerals -/

section Passing

variable {input after : Bytes}

theorem ScaleAt.skipExponent {exponent : Int} (hscale : ScaleAt input exponent after) :
    skipExponent input = .ok after := by
  have hplus : isDigit '+'.toUInt8 = false := by decide
  have hminus : isDigit '-'.toUInt8 = false := by decide
  cases hscale with
  | unsigned hdigits =>
      obtain ⟨byte, rest, rfl, hbyte, -, rfl⟩ := hdigits.exists_cons
      have hsign : ¬ (byte = '+'.toUInt8 ∨ byte = '-'.toUInt8) := by
        rintro (rfl | rfl) <;> exact absurd hbyte (by decide)
      simp [Json.skipExponent, hsign, hbyte]
  | plus hdigits =>
      obtain ⟨byte, rest, rfl, hbyte, -, rfl⟩ := hdigits.exists_cons
      simp [Json.skipExponent, hbyte]
  | minus hdigits =>
      obtain ⟨byte, rest, rfl, hbyte, -, rfl⟩ := hdigits.exists_cons
      simp [Json.skipExponent, hbyte]

theorem ExponentAt.skipScale {exponent : Int} (hexponent : ExponentAt input exponent after) :
    skipScale input = .ok after := by
  cases hexponent with
  | none hletter =>
      cases input with
      | nil => rfl
      | cons byte input => rw [Json.skipScale, if_neg (hletter byte rfl)]
  | some hletter hscale => rw [Json.skipScale, if_pos hletter, hscale.skipExponent]

theorem FractionAt.skipAfterWhole {digits beyond : Bytes} {exponent : Int}
    (hfraction : FractionAt input digits beyond) (hexponent : ExponentAt beyond exponent after) :
    skipAfterWhole input = .ok after := by
  cases hfraction with
  | none hpoint =>
      cases input with
      | nil => exact hexponent.skipScale
      | cons byte input =>
          have hbyte : byte ≠ '.'.toUInt8 := fun hbyte => hpoint (hbyte ▸ rfl)
          rw [Json.skipAfterWhole, if_neg hbyte, hexponent.skipScale]
  | some hdigits =>
      have hnonempty := hdigits.nonempty
      rw [← hdigits.taken] at hnonempty
      rw [Json.skipAfterWhole, if_pos rfl, if_neg (by simpa using hnonempty), hdigits.left,
        hexponent.skipScale]

theorem MagnitudeAt.skipNumber {value : ℚ} (hmagnitude : MagnitudeAt input value after) :
    skipNumber input = .ok after := by
  obtain ⟨hwhole, hleading, hfraction, hexponent⟩ := hmagnitude
  obtain ⟨byte, rest, rfl, hbyte, rfl, rfl⟩ := hwhole.exists_cons
  -- There are no digits after a zero.
  have hmiddle : (if byte = '0'.toUInt8 then rest else rest.dropWhile isDigit) =
      rest.dropWhile isDigit := by
    split_ifs with hzero
    · have hnone : rest.takeWhile isDigit = [] :=
        (List.cons.inj (hleading (congrArg some hzero))).2
      conv_lhs => rw [← List.takeWhile_append_dropWhile (p := isDigit) (l := rest), hnone]
      rfl
    · rfl
  rw [skipNumber_cons hbyte hmiddle hwhole.ends, hfraction.skipAfterWhole hexponent]

theorem skipSimple_of_isDigit {byte : UInt8} {rest : Bytes} (hbyte : isDigit byte = true) :
    skipSimple byte rest = (skipNumber (byte :: rest)).map (none, ·) := by
  unfold skipSimple
  split <;> rename_i hletter
  case h_8 => rw [if_pos hbyte]
  -- None of the other first bytes is a digit.
  all_goals
    rw [eq_toUInt8_of_ofUInt8_eq hletter] at hbyte
    exact absurd hbyte (by decide)

/-- A numeral starts with a digit or a minus sign, and is passed over to where it ends. -/
theorem NumeralAt.exists_cons {value : ℚ} (hnumeral : NumeralAt input value after) :
    ∃ byte rest, input = byte :: rest ∧ (isDigit byte = true ∨ byte = '-'.toUInt8) ∧
      skipSimple byte rest = .ok (none, after) := by
  have hminus : Char.ofUInt8 '-'.toUInt8 = '-' := by decide
  cases hnumeral with
  | unsigned hmagnitude =>
      cases input with
      | nil => exact absurd hmagnitude.skipNumber nofun
      | cons byte rest =>
          have hbyte := hmagnitude.isDigit_head
          refine ⟨byte, rest, rfl, .inl hbyte, ?_⟩
          rw [skipSimple_of_isDigit hbyte, hmagnitude.skipNumber]
          rfl
  | minus hmagnitude =>
      exact ⟨_, _, rfl, .inr rfl, by simp [skipSimple, hminus, hmagnitude.skipNumber, Except.map]⟩

theorem NumeralAt.skipBlanks_eq {value : ℚ} (hnumeral : NumeralAt input value after) :
    skipBlanks input = input := by
  obtain ⟨byte, rest, rfl, hbyte, -⟩ := hnumeral.exists_cons
  rcases hbyte with hdigit | rfl
  · exact skipBlanks_of_not_blank (isBlank_of_isDigit hdigit)
  · exact skipBlanks_of_not_blank (by decide)

/-- A numeral ends where a value is passed over. -/
theorem NumeralAt.passes {value : ℚ} (hnumeral : NumeralAt input value after) :
    Passes input after := by
  obtain ⟨byte, rest, hinput, -, hskip⟩ := hnumeral.exists_cons
  exact passes_word (hnumeral.skipBlanks_eq.trans hinput) hskip

end Passing

/-! ## Integers -/

/-- The literal of an integer, which has its decimal digits only, and what follows it.  Zero may
have a minus sign. -/
inductive IntegerAt : Bytes → Int → Bytes → Prop
  | unsigned {after : Bytes} (number : Nat) (hends : EndsNumber after) :
      IntegerAt (decimal number ++ after) number after
  | minus {after : Bytes} (number : Nat) (hends : EndsNumber after) :
      IntegerAt ('-'.toUInt8 :: (decimal number ++ after)) (-number) after

section Integers

variable {input after : Bytes}

theorem EndsNumber.digit (hends : EndsNumber after) :
    ∀ byte ∈ after.head?, isDigit byte = false :=
  fun byte hbyte => (hends byte hbyte).1

theorem EndsNumber.fractionAt (hends : EndsNumber after) : FractionAt after [] after :=
  .none fun hpoint => (hends _ hpoint).2.1 rfl

theorem EndsNumber.exponentAt (hends : EndsNumber after) : ExponentAt after 0 after :=
  .none fun byte hbyte => (hends byte hbyte).2.2

/-- The only decimal digits that start with a zero are those of zero. -/
theorem decimal_eq_zero {number : Nat} (hzero : (decimal number).head? = some '0'.toUInt8) :
    decimal number = ['0'.toUInt8] := by
  rcases Nat.eq_zero_or_pos number with rfl | hnumber
  · exact decimal_zero
  · obtain ⟨first, digits, hdecimal, hfirst⟩ := exists_decimal_cons hnumber
    rw [hdecimal] at hzero
    exact absurd (Option.some.inj hzero) hfirst

theorem areDigits_decimal (number : Nat) : AreDigits (decimal number) :=
  ⟨by simp [decimal], isDigit_of_mem_decimal⟩

theorem magnitudeAt_decimal (number : Nat) (hends : EndsNumber after) :
    MagnitudeAt (decimal number ++ after) number after := by
  have hmagnitude : MagnitudeAt (decimal number ++ after)
      (digitSum 0 (decimal number ++ []) * 10 ^ ((0 : Int) - ([] : Bytes).length)) after :=
    .mk ((areDigits_decimal number).digitsAt hends.digit) decimal_eq_zero hends.fractionAt
      hends.exponentAt
  simpa [digitSum_decimal] using hmagnitude

/-- The literal of an integer denotes the integer. -/
theorem IntegerAt.numeralAt {value : Int} (hinteger : IntegerAt input value after) :
    NumeralAt input value after := by
  cases hinteger with
  | unsigned number hends => exact .unsigned (by exact_mod_cast magnitudeAt_decimal number hends)
  | minus number hends =>
      have hnumeral := NumeralAt.minus (magnitudeAt_decimal number hends)
      exact_mod_cast hnumeral

end Integers

end FreightPromotion.Json
