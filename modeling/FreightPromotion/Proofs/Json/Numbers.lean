import FreightPromotion.Proofs.Decimal.Shortest
import FreightPromotion.Proofs.Json.Agreement
import FreightPromotion.Proofs.Json.Escapes

/-!
# Reading a printed integer

An integer is printed in its decimal digits, after a sign if it is negative.  The
reader adds the digits up for as long as the sum fits in 64 bits, and a printed number
has no leading zero at which it would stop.  So an integer that fits is read back from
its digits (`readNumber_decimal`, `readSimple_integer`).

Every integer that is read fits (`fits_of_readNumber`): one that does not becomes a
fraction.
-/

namespace FreightPromotion.Json

open FreightPromotion.Text (Bytes encode)

/-- The integer fits in 64 bits, with a sign or without one. -/
def InRange (value : Int) : Prop :=
  -2 ^ 63 ≤ value ∧ value < 2 ^ 64

/-- The end of the input, or a byte that no integer goes on with. -/
def EndsNumber (rest : Bytes) : Prop :=
  ∀ byte ∈ rest.head?, isDigit byte = false ∧ byte ≠ '.'.toUInt8 ∧
    ¬ (byte = 'e'.toUInt8 ∨ byte = 'E'.toUInt8)

theorem endsNumber_nil : EndsNumber [] :=
  nofun

variable {positive : Bool} {significand number : Nat} {digits rest input after : Bytes}

/-! ## Sums of digits -/

/-- The sum of digits after those of a significand, each ten times the next. -/
def digitSum (significand : Nat) (digits : Bytes) : Nat :=
  digits.foldl (fun sum byte => sum * 10 + (byte.toNat - 48)) significand

theorem le_digitSum (significand : Nat) (digits : Bytes) :
    significand ≤ digitSum significand digits := by
  induction digits generalizing significand with
  | nil => exact le_rfl
  | cons byte digits ih =>
      calc
        significand ≤ significand * 10 + (byte.toNat - 48) := by omega
        _ ≤ digitSum significand (byte :: digits) := ih _

theorem digitSum_append (significand : Nat) (first second : Bytes) :
    digitSum significand (first ++ second) = digitSum (digitSum significand first) second :=
  List.foldl_append

theorem digitSum_zeros (significand count : Nat) :
    digitSum significand (List.replicate count '0'.toUInt8) = significand * 10 ^ count := by
  have hzero : '0'.toUInt8.toNat - 48 = 0 := by decide
  induction count generalizing significand with
  | zero => simp [digitSum]
  | succ count ih =>
      calc
        digitSum significand (List.replicate (count + 1) '0'.toUInt8) =
            digitSum (significand * 10 + 0) (List.replicate count '0'.toUInt8) := by
          rw [List.replicate_succ, digitSum, List.foldl_cons, hzero]
          rfl
        _ = significand * 10 ^ (count + 1) := by
          rw [ih, Nat.add_zero, Nat.mul_assoc, Nat.pow_succ']

/-- All digits are appended if their sum fits. -/
theorem appendDigits_of_lt (hfits : digitSum significand digits < 2 ^ 64) :
    appendDigits significand digits = (digitSum significand digits, digits.length) := by
  induction digits generalizing significand with
  | nil => rfl
  | cons byte digits ih =>
      -- The sum only grows, and so it fits after each digit.
      have hlonger : significand * 10 + (byte.toNat - 48) < Nat.pow 2 64 :=
        (le_digitSum _ digits).trans_lt hfits
      rw [appendDigits, if_pos hlonger, ih hfits]
      rfl

theorem appendDigits_lt (hfits : significand < 2 ^ 64) :
    (appendDigits significand digits).1 < 2 ^ 64 := by
  induction digits generalizing significand with
  | nil => exact hfits
  | cons byte digits ih =>
      rw [appendDigits]
      split_ifs with hlonger
      · exact ih hlonger
      · exact hfits

/-! ## Decimal digits -/

/-- The decimal digits of a number, as they are printed. -/
def decimal (number : Nat) : Bytes :=
  (Nat.toDigits 10 number).map Char.toUInt8

theorem isDigit_toUInt8 {character : Char} (hdigit : character.isDigit = true) :
    isDigit character.toUInt8 = true ∧ character.toUInt8.toNat = character.toNat := by
  have hpoint : character.val.toNat = character.toNat := rfl
  simp only [Char.isDigit, Bool.and_eq_true, decide_eq_true_eq, ge_iff_le, UInt32.le_iff_toNat_le,
    hpoint] at hdigit
  have hbyte : character.toUInt8.toNat = character.toNat := by
    simp only [Char.toUInt8, UInt32.toNat_toUInt8, hpoint]
    simp at hdigit
    omega
  refine ⟨?_, hbyte⟩
  simp only [isDigit, Bool.and_eq_true, decide_eq_true_eq, UInt8.le_iff_toNat_le, hbyte]
  exact hdigit

theorem toNat_lt_of_isDigit {character : Char} (hdigit : character.isDigit = true) :
    character.toNat < 128 := by
  have hbyte := isDigit_toUInt8 hdigit
  simp only [isDigit, Bool.and_eq_true, decide_eq_true_eq, UInt8.le_iff_toNat_le, hbyte.2] at hbyte
  exact hbyte.1.2.trans_lt (by decide)

theorem isDigit_of_mem_decimal : ∀ byte ∈ decimal number, isDigit byte = true := by
  intro byte hbyte
  obtain ⟨character, hcharacter, rfl⟩ := List.mem_map.mp hbyte
  exact (isDigit_toUInt8 (Nat.isDigit_of_mem_toDigits (by decide) (by decide) hcharacter)).1

theorem digitSum_decimal (number : Nat) : digitSum 0 (decimal number) = number := by
  have hsum : digitSum 0 (decimal number) = Nat.ofDigitChars 10 (Nat.toDigits 10 number) 0 := by
    rw [digitSum, decimal, List.foldl_map, Nat.ofDigitChars_eq_foldl]
    refine List.foldl_ext _ _ _ fun sum character hcharacter => ?_
    have hdigit := Nat.isDigit_of_mem_toDigits (by decide) (by decide) hcharacter
    have hzero : '0'.toNat = 48 := rfl
    rw [(isDigit_toUInt8 hdigit).2, hzero, Nat.mul_comm]
  rw [hsum, Nat.ofDigitChars_ten_toDigits]

theorem decimal_zero : decimal 0 = ['0'.toUInt8] := by
  rw [decimal, Nat.toDigits_zero]
  rfl

/-- Only the digit zero has its byte. -/
theorem head?_of_head?_map {digits : List Char} (hdigits : ∀ digit ∈ digits, digit.isDigit = true)
    (hzero : (digits.map Char.toUInt8).head? = some '0'.toUInt8) : digits.head? = some '0' := by
  rw [List.head?_map] at hzero
  obtain ⟨digit, hdigit, hbyte⟩ := Option.map_eq_some_iff.mp hzero
  have hpoint := (isDigit_toUInt8 (hdigits digit (List.mem_of_mem_head? hdigit))).2
  rw [hbyte] at hpoint
  exact hdigit.trans (congrArg some (Char.toNat_inj.mp hpoint.symm))

theorem exists_decimal_cons (hnumber : 0 < number) :
    ∃ first digits, decimal number = first :: digits ∧ first ≠ '0'.toUInt8 := by
  cases hdecimal : decimal number with
  | nil => simp [decimal] at hdecimal
  | cons first digits =>
      refine ⟨first, digits, rfl, ?_⟩
      rintro rfl
      have hzero : (decimal number).head? = some '0'.toUInt8 := by rw [hdecimal]; rfl
      exact Decimal.head?_toDigits hnumber (head?_of_head?_map
        (fun digit hdigit => Nat.isDigit_of_mem_toDigits (by decide) (by decide) hdigit) hzero)

/-! ## Reading digits -/

/-- Digits end where something else begins. -/
theorem span_isDigit (hdigits : ∀ byte ∈ digits, isDigit byte = true)
    (hrest : ∀ byte ∈ rest.head?, isDigit byte = false) :
    (digits ++ rest).takeWhile isDigit = digits ∧ (digits ++ rest).dropWhile isDigit = rest := by
  have hends : rest.takeWhile isDigit = [] ∧ rest.dropWhile isDigit = rest := by
    cases rest with
    | nil => exact ⟨rfl, rfl⟩
    | cons byte rest => simp [hrest byte rfl]
  rw [List.takeWhile_append_of_pos hdigits, List.dropWhile_append_of_pos hdigits, hends.1, hends.2,
    List.append_nil]
  exact ⟨rfl, rfl⟩

theorem readAfterWhole_of_ends (dropped : Nat) (hrest : EndsNumber rest) :
    readAfterWhole positive significand dropped rest =
      if dropped = 0 then .ok (integerOf positive significand, rest)
      else finishFraction positive significand dropped rest := by
  cases rest with
  | nil => rfl
  | cons byte rest =>
      obtain ⟨-, hpoint, hletter⟩ := hrest byte rfl
      rw [readAfterWhole, if_neg hpoint, if_neg hletter]

/-- A number is read from its digits, up to their end.  It is an integer if no digit is left out. -/
theorem readNumber_digits (positive : Bool) (number : Nat) (hrest : EndsNumber rest) :
    readNumber positive (decimal number ++ rest) =
      let (significand, count) := appendDigits 0 (decimal number)
      let dropped := (decimal number).length - count
      if dropped = 0 then .ok (integerOf positive significand, rest)
      else finishFraction positive significand dropped rest := by
  rcases Nat.eq_zero_or_pos number with rfl | hnumber
  · have happend : appendDigits 0 ['0'.toUInt8] = (0, 1) := by decide
    rw [decimal_zero, List.singleton_append, readNumber.eq_def]
    dsimp only
    rw [if_pos rfl, happend]
    cases rest with
    | nil => exact readAfterWhole_of_ends 0 hrest
    | cons byte rest =>
        simp only [(hrest byte rfl).1]
        exact readAfterWhole_of_ends 0 hrest
  · obtain ⟨first, digits, hdecimal, hfirst⟩ := exists_decimal_cons hnumber
    have hdigit : ∀ byte ∈ first :: digits, isDigit byte = true :=
      hdecimal ▸ isDigit_of_mem_decimal
    have hlater : ∀ byte ∈ digits, isDigit byte = true :=
      fun byte hbyte => hdigit byte (List.mem_cons_of_mem _ hbyte)
    obtain ⟨htaken, hleft⟩ := span_isDigit hlater fun byte hbyte => (hrest byte hbyte).1
    rw [hdecimal, List.cons_append, readNumber.eq_def]
    dsimp only
    rw [if_neg hfirst, if_pos (hdigit first List.mem_cons_self), htaken, hleft]
    exact readAfterWhole_of_ends _ hrest

/-- A number that fits is an integer. -/
theorem readNumber_decimal (positive : Bool) (hfits : number < 2 ^ 64) (hrest : EndsNumber rest) :
    readNumber positive (decimal number ++ rest) = .ok (integerOf positive number, rest) := by
  have hsum : digitSum 0 (decimal number) < 2 ^ 64 := by rwa [digitSum_decimal]
  rw [readNumber_digits positive number hrest, appendDigits_of_lt hsum, digitSum_decimal]
  dsimp only
  rw [Nat.sub_self, if_pos rfl]

/-! ## Printed integers -/

theorem encode_toString (number : Nat) : encode (toString number) = decimal number := by
  rw [Nat.toString_eq_ofList_toDigits, encode_ofList, decimal, bytesOf_eq_map]
  intro character hcharacter
  exact toNat_lt_of_isDigit (Nat.isDigit_of_mem_toDigits (by decide) (by decide) hcharacter)

theorem encode_ofNat (number : Nat) : encode (toString (Int.ofNat number)) = decimal number :=
  encode_toString number

/-- The digits of a negative integer come after a minus sign. -/
theorem encode_negSucc (number : Nat) :
    encode (toString (Int.negSucc number)) = '-'.toUInt8 :: decimal (number + 1) := by
  have hminus : encode "-" = ['-'.toUInt8] := by decide
  rw [← encode_toString, ← List.singleton_append, ← hminus, ← Text.encode_append]
  rfl

theorem readSimple_of_isDigit {byte : UInt8} (hbyte : isDigit byte = true) :
    readSimple byte rest =
      (readNumber true (byte :: rest)).map fun (number, after) =>
        (some (.number number), after) := by
  unfold readSimple
  split <;> rename_i hletter
  case h_8 => rw [if_pos hbyte]
  -- None of the other first bytes is a digit.
  all_goals
    rw [eq_toUInt8_of_ofUInt8_eq hletter] at hbyte
    exact absurd hbyte (by decide)

theorem isBlank_of_isDigit {byte : UInt8} (hbyte : isDigit byte = true) : isBlank byte = false := by
  simp only [isDigit, isBlank, Bool.and_eq_true, decide_eq_true_eq, UInt8.le_iff_toNat_le,
    Bool.or_eq_false_iff, decide_eq_false_iff_not, ← UInt8.toNat_inj] at hbyte ⊢
  simp at hbyte ⊢
  omega

/-- An integer that fits is read back from its text. -/
theorem readSimple_integer {value : Int} (hrange : InRange value) (hrest : EndsNumber rest) :
    ∃ byte inner, encode (toString value) ++ rest = byte :: inner ∧ isBlank byte = false ∧
      readSimple byte inner = .ok (some (.number (.integer value)), rest) := by
  obtain ⟨hlow, hhigh⟩ := hrange
  cases value with
  | ofNat number =>
      have hfits : number < 2 ^ 64 := Int.ofNat_lt.mp hhigh
      have hread := readNumber_decimal true hfits hrest
      rw [encode_ofNat]
      cases hdecimal : decimal number with
      | nil => simp [decimal] at hdecimal
      | cons first digits =>
          have hfirst : isDigit first = true :=
            isDigit_of_mem_decimal first (hdecimal ▸ List.mem_cons_self)
          rw [hdecimal, List.cons_append] at hread
          refine ⟨first, digits ++ rest, rfl, isBlank_of_isDigit hfirst, ?_⟩
          rw [readSimple_of_isDigit hfirst, hread]
          rfl
  | negSucc number =>
      have hfits : number + 1 ≤ 2 ^ 63 := by
        rw [Int.negSucc_eq] at hlow
        omega
      have hread := readNumber_decimal false (hfits.trans_lt (by decide)) hrest
      have hletter : Char.ofUInt8 '-'.toUInt8 = '-' := by decide
      have hinteger : integerOf false (number + 1) = .integer (Int.negSucc number) := by
        have hlarge : ¬ number + 1 > Nat.pow 2 63 := Nat.not_lt.mpr hfits
        simp [integerOf, hlarge, Int.negSucc_eq]
      refine ⟨'-'.toUInt8, decimal (number + 1) ++ rest, by rw [encode_negSucc]; rfl, by decide, ?_⟩
      simp [readSimple, hletter, hread, hinteger, Except.map]

/-! ## Integers that are read -/

/-- The number is a fraction, or an integer that fits. -/
def Number.Fits : Number → Prop
  | .integer value => InRange value
  | .fraction _ => True

section Fits

variable {start : Int} {found : Number}

theorem fits_integerOf (hfits : significand < 2 ^ 64) : (integerOf positive significand).Fits := by
  unfold integerOf
  split_ifs with hpositive hlarge
  · exact ⟨by omega, by exact_mod_cast hfits⟩
  · trivial
  · rw [not_or, Nat.not_lt] at hlarge
    have hbound : (significand : Int) ≤ 2 ^ 63 := by exact_mod_cast hlarge.2
    exact ⟨by omega, by omega⟩

theorem fits_of_finishFraction
    (hread : finishFraction positive significand start input = .ok (found, after)) :
    found.Fits := by
  unfold finishFraction at hread
  split at hread
  · cases hread
    trivial
  · contradiction

theorem fits_of_readExponent
    (hread : readExponent positive significand start input = .ok (found, after)) :
    found.Fits := by
  unfold readExponent at hread
  split at hread
  split at hread
  · contradiction
  · split at hread
    · contradiction
    · split at hread
      split at hread
      · split at hread
        · split at hread
          · contradiction
          · cases hread
            trivial
        · exact fits_of_finishFraction hread
      · exact fits_of_finishFraction hread

theorem fits_of_readScaled
    (hread : readScaled positive significand start input = .ok (found, after)) : found.Fits := by
  unfold readScaled at hread
  split at hread
  · split at hread
    · exact fits_of_readExponent hread
    · exact fits_of_finishFraction hread
  · exact fits_of_finishFraction hread

theorem fits_of_readAfterWhole {dropped : Nat} (hfits : significand < 2 ^ 64)
    (hread : readAfterWhole positive significand dropped input = .ok (found, after)) :
    found.Fits := by
  have hplain : ∀ {input}, (if dropped = 0 then .ok (integerOf positive significand, input)
      else finishFraction positive significand dropped input) = .ok (found, after) →
        found.Fits := by
    intro input hread
    split at hread
    · cases hread
      exact fits_integerOf hfits
    · exact fits_of_finishFraction hread
  unfold readAfterWhole at hread
  split at hread
  · split at hread
    · unfold readFraction at hread
      dsimp only at hread
      split at hread
      · split at hread <;> contradiction
      · exact fits_of_readScaled hread
    · split at hread
      · exact fits_of_readExponent hread
      · exact hplain hread
  · exact hplain hread

/-- Every integer that is read fits. -/
theorem fits_of_readNumber (hread : readNumber positive input = .ok (found, after)) :
    found.Fits := by
  have hzero : 0 < 2 ^ 64 := by decide
  cases input with
  | nil => contradiction
  | cons byte rest =>
      rw [readNumber.eq_def] at hread
      dsimp only at hread
      split at hread
      · split at hread
        · split at hread
          · contradiction
          · exact fits_of_readAfterWhole hzero hread
        · exact fits_of_readAfterWhole hzero hread
      · split at hread
        · exact fits_of_readAfterWhole (appendDigits_lt hzero) hread
        · contradiction

end Fits

end FreightPromotion.Json
