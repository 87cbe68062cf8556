import FreightPromotion.Proofs.Json.Numerals

/-!
# Printed numbers are numerals

Every number is printed as a numeral (`Number.numeralAt`): an integer as its literal, and a fraction
as its shortest digits, around a point or before an exponent, whichever layout a format has.  What
the numeral denotes is the integer itself or, for a fraction, what its shortest digits stand for
(`Number.value`).
-/

namespace FreightPromotion

open FreightPromotion.Text (Bytes encode)

/-! ## Shortest digits -/

namespace Decimal

variable {number : Scientific}

/-- The digits as bytes. -/
def Scientific.bytes (number : Scientific) : Bytes :=
  number.digits.map Char.toUInt8

/-- The number that the digits stand for. -/
def Scientific.value (number : Scientific) : ℚ :=
  Json.digitSum 0 number.bytes * 10 ^ (number.point - number.bytes.length)

theorem Scientific.value_nonneg (number : Scientific) : 0 ≤ number.value := by
  unfold Scientific.value
  positivity

theorem Scientific.Normal.areDigits (hnormal : number.Normal) : Json.AreDigits number.bytes := by
  refine ⟨by simpa [Scientific.bytes] using hnormal.nonempty, fun byte hbyte => ?_⟩
  obtain ⟨digit, hdigit, rfl⟩ := List.mem_map.mp hbyte
  exact (Json.isDigit_toUInt8 (hnormal.digits digit hdigit)).1

theorem Scientific.Normal.head?_bytes (hnormal : number.Normal) :
    number.bytes.head? ≠ some '0'.toUInt8 :=
  fun hzero => hnormal.leading (Json.head?_of_head?_map hnormal.digits hzero)

theorem Scientific.value_ofPoint (point : Nat) (power : Int) :
    (Scientific.ofPoint point power).value = point * 10 ^ power := by
  obtain ⟨count, hzeros⟩ := exists_trimZeros_append (Nat.toDigits 10 point)
  have hten : (10 : ℚ) ≠ 0 := by norm_num
  have hsum : Json.digitSum 0 (Scientific.ofPoint point power).bytes * 10 ^ count = point := by
    have hdigits : Json.decimal point =
        (Scientific.ofPoint point power).bytes ++ List.replicate count '0'.toUInt8 := by
      rw [Json.decimal, hzeros, List.map_append, List.map_replicate]
      rfl
    rw [← Json.digitSum_zeros, ← Json.digitSum_append, ← hdigits, Json.digitSum_decimal]
  have hplaces : (Scientific.ofPoint point power).point -
      (Scientific.ofPoint point power).bytes.length = power + count := by
    have hlength := congrArg List.length hzeros
    simp only [List.length_append, List.length_replicate] at hlength
    simp only [Scientific.ofPoint, Scientific.bytes, List.length_map]
    omega
  have hrational : (Json.digitSum 0 (Scientific.ofPoint point power).bytes : ℚ) * 10 ^ count =
      point := by exact_mod_cast hsum
  rw [Scientific.value, hplaces, add_comm, zpow_add₀ hten, zpow_natCast, ← mul_assoc, hrational]

/-- The shortest digits of a large fraction stand for a multiple of a hundred. -/
theorem exists_hundreds {bits : UInt64} (hbits : bits ≠ 0) (hsign : bits.toNat < 2 ^ 63)
    (hlarge : 2 ^ 63 ≤ (shortest bits).value) :
    ∃ count : Nat, (shortest bits).value = (100 * count : Nat) := by
  obtain ⟨power, point, hshortest, hplaces⟩ := shortest_of_large hbits hsign
  rw [hshortest, Scientific.value_ofPoint] at hlarge ⊢
  obtain ⟨zeros, rfl⟩ := Int.exists_add_of_le (hplaces hlarge)
  refine ⟨point * 10 ^ zeros, ?_⟩
  have hten : (10 : ℚ) ≠ 0 := by norm_num
  rw [zpow_add₀ hten, zpow_natCast]
  push_cast
  ring

/-- The number that a fraction is printed as. -/
def printedValue (value : Float) : ℚ :=
  let bits := value.toBits
  let magnitude := bits % 0x8000000000000000
  let size := if magnitude = 0 then 0 else (shortest magnitude).value
  if bits = magnitude then size else -size

end Decimal

/-! ## Numerals of shortest digits -/

namespace Json

open FreightPromotion.Decimal (Scientific Layout)

section Magnitude

variable {rest input : Bytes} {value : ℚ} {number : Scientific}

theorem isDigit_of_mem_zeros (count : Nat) :
    ∀ byte ∈ List.replicate count '0'.toUInt8, isDigit byte = true := by
  intro byte hbyte
  rw [List.eq_of_mem_replicate hbyte]
  decide

theorem areDigits_zero : AreDigits ['0'.toUInt8] :=
  ⟨List.cons_ne_nil _ _, isDigit_of_mem_zeros 1⟩

/-- Digits around a point. -/
theorem magnitudeAt_of_point {whole fraction : Bytes} (hwhole : AreDigits whole)
    (hfraction : AreDigits fraction)
    (hleading : whole.head? = some '0'.toUInt8 → whole = ['0'.toUInt8]) (hrest : EndsNumber rest)
    (hinput : input = whole ++ ['.'.toUInt8] ++ fraction)
    (hvalue : digitSum 0 (whole ++ fraction) * 10 ^ (-fraction.length : Int) = value) :
    MagnitudeAt (input ++ rest) value rest := by
  have hpoint : isDigit '.'.toUInt8 = false := by decide
  rw [hinput, ← hvalue, ← zero_sub, List.append_assoc, List.append_assoc, List.singleton_append]
  exact .mk (hwhole.digitsAt (by simpa using hpoint)) hleading
    (.some (hfraction.digitsAt hrest.digit)) hrest.exponentAt

theorem magnitudeAt_plain (hnormal : number.Normal) (hrest : EndsNumber rest) :
    MagnitudeAt (number.plain.map Char.toUInt8 ++ rest) number.value rest := by
  obtain ⟨hnonempty, hdigits⟩ := hnormal.areDigits
  have hlength : number.bytes.length = number.digits.length := List.length_map _
  have hten : (10 : ℚ) ≠ 0 := by norm_num
  rw [Scientific.value]
  unfold Scientific.plain
  dsimp only
  split_ifs with hpoint hlong
  · obtain ⟨zeros, hzeros⟩ := Int.exists_eq_neg_ofNat hpoint
    have hfraction : AreDigits (List.replicate zeros '0'.toUInt8 ++ number.bytes) :=
      ⟨List.append_ne_nil_of_right_ne_nil _ hnonempty,
        List.forall_mem_append.mpr ⟨isDigit_of_mem_zeros zeros, hdigits⟩⟩
    refine magnitudeAt_of_point areDigits_zero hfraction (fun _ => rfl) hrest ?_ ?_
    · simp [hzeros, Scientific.bytes]
    · have hzero : digitSum 0 ['0'.toUInt8] = 0 := by decide
      rw [digitSum_append, digitSum_append, hzero, digitSum_zeros, Nat.zero_mul, hzeros]
      simp [sub_eq_add_neg, add_comm]
  · obtain ⟨zeros, hzeros⟩ : ∃ zeros, number.point.toNat = number.digits.length + zeros :=
      Nat.exists_eq_add_of_le hlong
    have hwhole : AreDigits (number.bytes ++ List.replicate zeros '0'.toUInt8) :=
      ⟨List.append_ne_nil_of_left_ne_nil hnonempty _,
        List.forall_mem_append.mpr ⟨hdigits, isDigit_of_mem_zeros zeros⟩⟩
    refine magnitudeAt_of_point hwhole areDigits_zero ?_ hrest ?_ ?_
    · rw [List.head?_append_of_ne_nil _ hnonempty]
      exact fun hzero => absurd hzero hnormal.head?_bytes
    · simp [hzeros, Scientific.bytes]
    · have hplaces : number.point - number.bytes.length = zeros := by omega
      have hzero : ['0'.toUInt8] = List.replicate 1 '0'.toUInt8 := rfl
      rw [hzero, digitSum_append, digitSum_append, digitSum_zeros, digitSum_zeros, hplaces]
      simp
  · have hwhole : AreDigits (number.bytes.take number.point.toNat) :=
      ⟨by simpa [hnonempty] using hpoint,
        fun byte hbyte => hdigits byte (List.mem_of_mem_take hbyte)⟩
    have hfraction : AreDigits (number.bytes.drop number.point.toNat) :=
      ⟨by simpa [hlength] using hlong, fun byte hbyte => hdigits byte (List.mem_of_mem_drop hbyte)⟩
    refine magnitudeAt_of_point hwhole hfraction ?_ hrest ?_ ?_
    · rw [List.head?_take]
      split_ifs
      · simp
      · exact fun hzero => absurd hzero hnormal.head?_bytes
    · simp [Scientific.bytes, List.map_take, List.map_drop]
    · have hplaces : -((number.bytes.drop number.point.toNat).length : Int) =
          number.point - number.bytes.length := by
        rw [List.length_drop]
        omega
      rw [List.take_append_drop, hplaces]

/-- An exponent is printed after its sign, which may be left out if it is not negative. -/
theorem scaleAt_printed (signed : Bool) (exponent : Int) (hrest : EndsNumber rest) :
    ScaleAt ((if exponent < 0 then ['-'.toUInt8] else if signed then ['+'.toUInt8] else []) ++
      decimal exponent.natAbs ++ rest) exponent rest := by
  have hdigits := (areDigits_decimal exponent.natAbs).digitsAt hrest.digit
  have hsum := digitSum_decimal exponent.natAbs
  have hsign : (exponent.natAbs : Int) = if exponent < 0 then -exponent else exponent := by
    split_ifs <;> omega
  split_ifs at hsign ⊢ with hnegative hsigned
  · have hscale := ScaleAt.minus hdigits
    rw [hsum, hsign, neg_neg] at hscale
    exact hscale
  · have hscale := ScaleAt.plus hdigits
    rw [hsum, hsign] at hscale
    exact hscale
  · have hscale := ScaleAt.unsigned hdigits
    rw [hsum, hsign] at hscale
    exact hscale

/-- One digit before the point, and the others after it. -/
theorem magnitudeAt_of_exponent {first : UInt8} {others scale after : Bytes} {exponent : Int}
    (hfirst : isDigit first = true) (hothers : ∀ byte ∈ others, isDigit byte = true)
    (hexponent : ExponentAt ('e'.toUInt8 :: scale) exponent after) :
    MagnitudeAt
      (first :: (if others = [] then [] else '.'.toUInt8 :: others) ++ 'e'.toUInt8 :: scale)
      (digitSum 0 (first :: others) * 10 ^ (exponent - others.length)) after := by
  have hletter : isDigit 'e'.toUInt8 = false := by decide
  have hpoint : isDigit '.'.toUInt8 = false := by decide
  have hwhole : AreDigits [first] := ⟨List.cons_ne_nil _ _, by simpa using hfirst⟩
  have hleading : [first].head? = some '0'.toUInt8 → [first] = ['0'.toUInt8] :=
    fun hzero => congrArg ([·]) (Option.some.inj hzero)
  split_ifs with hnone
  · subst hnone
    have hbyte : 'e'.toUInt8 ≠ '.'.toUInt8 := by decide
    have hnopoint : FractionAt ('e'.toUInt8 :: scale) [] ('e'.toUInt8 :: scale) :=
      .none (by simpa using hbyte)
    exact .mk (hwhole.digitsAt (by simpa using hletter)) hleading hnopoint hexponent
  · have hfraction : AreDigits others := ⟨hnone, hothers⟩
    exact .mk (hwhole.digitsAt (by simpa using hpoint)) hleading
      (.some (hfraction.digitsAt (by simpa using hletter))) hexponent

theorem magnitudeAt_exponential (signed : Bool) (hnormal : number.Normal)
    (hrest : EndsNumber rest) :
    MagnitudeAt ((number.exponential signed).map Char.toUInt8 ++ rest) number.value rest := by
  obtain ⟨hnonempty, hdigits⟩ := hnormal.areDigits
  obtain ⟨digits, point⟩ := number
  obtain ⟨first, others, rfl⟩ : ∃ first others, digits = first :: others :=
    List.exists_cons_of_ne_nil hnormal.nonempty
  have hscale := scaleAt_printed signed (point - 1) hrest
  have hmagnitude := magnitudeAt_of_exponent (hdigits _ List.mem_cons_self)
    (fun byte hbyte => hdigits byte (List.mem_cons_of_mem _ hbyte)) (.some (.inl rfl) hscale)
  have hplaces : point - 1 - (others.map Char.toUInt8).length =
      point - ((first :: others).map Char.toUInt8).length := by
    simp
    ring
  have hsign : (if point - 1 < 0 then ['-'] else if signed then ['+'] else []).map Char.toUInt8 =
      if point - 1 < 0 then ['-'.toUInt8] else if signed then ['+'.toUInt8] else [] := by
    split_ifs <;> rfl
  have hspelling :
      (Scientific.exponential signed ⟨first :: others, point⟩).map Char.toUInt8 ++ rest =
        first.toUInt8 :: (if others.map Char.toUInt8 = [] then []
        else '.'.toUInt8 :: others.map Char.toUInt8) ++ 'e'.toUInt8 ::
          ((if point - 1 < 0 then ['-'.toUInt8] else if signed then ['+'.toUInt8] else []) ++
            decimal (point - 1).natAbs ++ rest) := by
    rw [← hsign, decimal]
    cases others <;> simp [Scientific.exponential]
  rw [hspelling]
  rw [hplaces] at hmagnitude
  exact hmagnitude

/-- A character that numbers are written with. -/
def IsNumeric (character : Char) : Prop :=
  character.isDigit = true ∨ character ∈ ['.', 'e', '+', '-']

theorem IsNumeric.toNat_lt {character : Char} (hnumeric : IsNumeric character) :
    character.toNat < 128 := by
  rcases hnumeric with hdigit | hsign
  · exact toNat_lt_of_isDigit hdigit
  · simp only [List.mem_cons, List.not_mem_nil, or_false] at hsign
    rcases hsign with rfl | rfl | rfl | rfl <;> decide

theorem isNumeric_plain (hnormal : number.Normal) :
    ∀ character ∈ number.plain, IsNumeric character := by
  have hdigits : ∀ digit ∈ number.digits, IsNumeric digit :=
    fun digit hdigit => .inl (hnormal.digits digit hdigit)
  have hzeros : ∀ count, ∀ digit ∈ List.replicate count '0', IsNumeric digit := by
    intro count digit hdigit
    rw [List.eq_of_mem_replicate hdigit]
    exact .inl (by decide)
  have hpoint : IsNumeric '.' := .inr (by decide)
  have hzero : IsNumeric '0' := .inl (by decide)
  unfold Scientific.plain
  dsimp only
  split_ifs <;>
    simp only [List.forall_mem_append, List.forall_mem_cons, List.not_mem_nil, false_implies,
      implies_true, and_true]
  · exact ⟨⟨⟨hzero, hpoint⟩, hzeros _⟩, hdigits⟩
  · exact ⟨⟨hdigits, hzeros _⟩, hpoint, hzero⟩
  · exact ⟨⟨fun digit hdigit => hdigits digit (List.mem_of_mem_take hdigit), hpoint⟩,
      fun digit hdigit => hdigits digit (List.mem_of_mem_drop hdigit)⟩

theorem isNumeric_exponential (signed : Bool) (hnormal : number.Normal) :
    ∀ character ∈ number.exponential signed, IsNumeric character := by
  have hdigits : ∀ digit ∈ number.digits, IsNumeric digit :=
    fun digit hdigit => .inl (hnormal.digits digit hdigit)
  have hexponent : ∀ digit ∈ Nat.toDigits 10 (number.point - 1).natAbs, IsNumeric digit :=
    fun digit hdigit => .inl (Nat.isDigit_of_mem_toDigits (by decide) (by decide) hdigit)
  have hothers : ∀ digit ∈ number.digits.drop 1, IsNumeric digit :=
    fun digit hdigit => hdigits digit (List.mem_of_mem_drop hdigit)
  have hpoint : IsNumeric '.' := .inr (by decide)
  have hletter : IsNumeric 'e' := .inr (by decide)
  have hplus : IsNumeric '+' := .inr (by decide)
  have hminus : IsNumeric '-' := .inr (by decide)
  unfold Scientific.exponential
  dsimp only
  simp only [List.forall_mem_append, List.forall_mem_cons, List.not_mem_nil, false_implies,
    implies_true, and_true]
  refine ⟨⟨⟨⟨fun digit hdigit => hdigits digit (List.mem_of_mem_take hdigit), ?_⟩, hletter⟩,
    ?_⟩, hexponent⟩
  · split
    · exact List.forall_mem_nil _
    · exact List.forall_mem_cons.mpr ⟨hpoint, hothers⟩
  · split_ifs <;> simp [hplus, hminus]

theorem isNumeric_magnitude (layout : Layout) (hnormal : number.Normal) :
    ∀ character ∈ layout.magnitude number, IsNumeric character := by
  unfold Layout.magnitude
  dsimp only
  split_ifs
  · exact isNumeric_plain hnormal
  · exact isNumeric_exponential _ hnormal

theorem magnitudeAt_magnitude (layout : Layout) (hnormal : number.Normal)
    (hrest : EndsNumber rest) :
    MagnitudeAt ((layout.magnitude number).map Char.toUInt8 ++ rest) number.value rest := by
  unfold Layout.magnitude
  dsimp only
  split_ifs
  · exact magnitudeAt_plain hnormal hrest
  · exact magnitudeAt_exponential _ hnormal hrest

end Magnitude

/-! ## Numbers -/

section Numbers

variable {rest : Bytes}

/-- What follows the sign of a fraction. -/
theorem magnitudeAt_bits (layout : Layout) {bits : UInt64} (hbits : bits.toNat < 2 ^ 63)
    (hrest : EndsNumber rest) :
    let text := if bits = 0 then ['0', '.', '0'] else layout.magnitude (Decimal.shortest bits)
    (∀ character ∈ text, IsNumeric character) ∧
      MagnitudeAt (text.map Char.toUInt8 ++ rest)
        (if bits = 0 then 0 else (Decimal.shortest bits).value) rest := by
  dsimp only
  split_ifs with hzero
  · refine ⟨?_, magnitudeAt_of_point areDigits_zero areDigits_zero (fun _ => rfl) hrest rfl ?_⟩
    · simp [IsNumeric]
    · have hsum : digitSum 0 (['0'.toUInt8] ++ ['0'.toUInt8]) = 0 := by decide
      rw [hsum]
      simp
  · have hnormal := Decimal.normal_shortest hzero hbits
    exact ⟨isNumeric_magnitude layout hnormal, magnitudeAt_magnitude layout hnormal hrest⟩

theorem encode_of_isNumeric {characters : List Char}
    (hnumeric : ∀ character ∈ characters, IsNumeric character) :
    encode (String.ofList characters) = characters.map Char.toUInt8 := by
  rw [encode_ofList, bytesOf_eq_map fun character hcharacter => (hnumeric _ hcharacter).toNat_lt]

/-- A fraction is printed as a numeral. -/
theorem numeralAt_fraction (layout : Layout) (value : Float) (hrest : EndsNumber rest) :
    NumeralAt (encode (layout.text value) ++ rest) (Decimal.printedValue value) rest := by
  have hbits : (value.toBits % 0x8000000000000000).toNat < 2 ^ 63 := by
    rw [UInt64.toNat_mod]
    exact Nat.mod_lt _ (by decide)
  obtain ⟨hnumeric, hmagnitude⟩ := magnitudeAt_bits layout hbits hrest
  unfold Layout.text Decimal.printedValue
  dsimp only
  -- The sign is the same before every text and number.
  generalize (if value.toBits % 0x8000000000000000 = 0 then ['0', '.', '0']
    else layout.magnitude (Decimal.shortest (value.toBits % 0x8000000000000000))) = text
    at hnumeric hmagnitude ⊢
  generalize (if value.toBits % 0x8000000000000000 = 0 then (0 : ℚ)
    else (Decimal.shortest (value.toBits % 0x8000000000000000)).value) = size at hmagnitude ⊢
  split_ifs
  · rw [List.nil_append, encode_of_isNumeric hnumeric]
    exact .unsigned hmagnitude
  · have hminus : ∀ character ∈ ['-'], IsNumeric character := by simp [IsNumeric]
    rw [encode_of_isNumeric (List.forall_mem_append.mpr ⟨hminus, hnumeric⟩)]
    exact .minus hmagnitude

/-- The number that a numeral stands for where the number is printed. -/
def Number.value : Number → ℚ
  | .integer value => value
  | .fraction value => Decimal.printedValue value

/-- An integer is printed as its literal. -/
theorem integerAt_integer (value : Int) (layout : Layout) (hrest : EndsNumber rest) :
    IntegerAt (encode ((Number.integer value).text layout) ++ rest) value rest := by
  cases value with
  | ofNat number =>
      have hspelling : encode ((Number.integer (Int.ofNat number)).text layout) = decimal number :=
        encode_ofNat number
      rw [hspelling]
      exact .unsigned number hrest
  | negSucc number =>
      have hspelling : encode ((Number.integer (Int.negSucc number)).text layout) =
          '-'.toUInt8 :: decimal (number + 1) := encode_negSucc number
      rw [hspelling]
      exact .minus (number + 1) hrest

/-- Every number is printed as a numeral. -/
theorem Number.numeralAt (number : Number) (layout : Layout) (hrest : EndsNumber rest) :
    NumeralAt (encode (number.text layout) ++ rest) number.value rest := by
  cases number with
  | integer value => exact (integerAt_integer value layout hrest).numeralAt
  | fraction value => exact numeralAt_fraction layout value hrest

end Numbers

end Json

end FreightPromotion
