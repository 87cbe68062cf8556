import FreightPromotion.Json.Skipped
import FreightPromotion.Proofs.Prelude
import Mathlib.Data.List.DropRight

/-!
# Reading a word and passing over it

A text or number is read for its value, with every rule checked, or passed over,
with fewer.  Both find the same end: where a word can be read, passing over it
succeeds and leaves the same rest (`skipQuoted_of_readQuoted`,
`skipNumber_of_readNumber`).

A pair of surrogates is one escape to the reader and two to the skipper, and an
exponent that is too long is cut by the reader only.  In all other respects they
take the input in the same pieces.
-/

namespace FreightPromotion.Json

open FreightPromotion.Text (Bytes)

/-! ## Blanks and letters -/

theorem skipBlanks_length (input : Bytes) : (skipBlanks input).length ≤ input.length :=
  (List.dropWhile_suffix _).length_le

theorem skipBlanks_cons_length {input rest : Bytes} {byte : UInt8}
    (hnext : skipBlanks input = byte :: rest) : rest.length < input.length := by
  have hlength := skipBlanks_length input
  rw [hnext, List.length_cons] at hlength
  exact hlength

@[simp]
theorem skipBlanks_skipBlanks (input : Bytes) : skipBlanks (skipBlanks input) = skipBlanks input :=
  List.dropWhile_idempotent isBlank input

theorem skipBlanks_of_not_blank {byte : UInt8} {rest : Bytes} (hbyte : isBlank byte = false) :
    skipBlanks (byte :: rest) = byte :: rest := by
  rw [skipBlanks, List.dropWhile_cons_of_neg (by simp [hbyte])]

theorem skipBlanks_append {blanks rest : Bytes} (hblanks : ∀ byte ∈ blanks, isBlank byte) :
    skipBlanks (blanks ++ rest) = skipBlanks rest :=
  List.dropWhile_append_of_pos hblanks

theorem withNext_eq_ok_iff {α : Type} {input : Bytes} {next : UInt8 → Bytes → Except Fault α}
    {result : α} :
    withNext input next = .ok result ↔
      ∃ byte rest, skipBlanks input = byte :: rest ∧ next byte rest = .ok result := by
  unfold withNext
  cases skipBlanks input <;> simp

theorem readLetters_length {letters : List Char} {input after : Bytes}
    (hread : readLetters letters input = .ok after) : after.length ≤ input.length := by
  induction letters generalizing input with
  | nil =>
      cases hread
      exact le_rfl
  | cons letter letters ih =>
      cases input with
      | nil => contradiction
      | cons byte rest =>
          rw [readLetters] at hread
          split at hread
          · exact (ih hread).trans (Nat.le_succ _)
          · contradiction

/-! ## Escapes -/

theorem skipEscape_numeric {byte : UInt8} {digits : Bytes} {unit : Nat}
    (hletter : Char.ofUInt8 byte = 'u') (hread : readQuad digits = .ok unit) :
    skipEscape (byte :: digits) = .ok 5 := by
  simp [skipEscape, hletter, hread]

theorem skipQuoted_escape {rest : Bytes} {length : Nat} (hskip : skipEscape rest = .ok length) :
    skipQuoted ('\\'.toUInt8 :: rest) = skipQuoted (rest.drop length) := by
  have hquote : '\\'.toUInt8 ≠ '\"'.toUInt8 := by decide
  rw [skipQuoted]
  simp only [hquote, if_false, if_true, hskip]

/-- A trailing half is an escape by number of its own. -/
theorem readTrailingHalf_eq_ok {input : Bytes} {unit : Nat}
    (hread : readTrailingHalf input = .ok unit) :
    ∃ digits, input = '\\'.toUInt8 :: 'u'.toUInt8 :: digits ∧ readQuad digits = .ok unit := by
  unfold readTrailingHalf at hread
  split at hread
  · contradiction
  · rename_i backslash rest
    split at hread
    · contradiction
    · rename_i hbackslash
      split at hread
      · contradiction
      · rename_i letter digits
        split at hread
        · contradiction
        · rename_i hletter
          rw [not_not] at hbackslash hletter
          obtain ⟨found, hquad, hfound⟩ := bind_eq_ok_iff.mp hread
          split at hfound
          · cases hfound
            exact ⟨digits, by rw [hbackslash, hletter], hquad⟩
          · contradiction

/-- An escape by number is one escape, or a pair of them. -/
theorem readNumericEscape_eq_ok {input bytes : Bytes} {length : Nat}
    (hread : readNumericEscape input = .ok (bytes, length)) :
    (∃ unit, readQuad input = .ok unit) ∧
      (length = 4 ∨
        length = 10 ∧ ∃ digits unit, input.drop 4 = '\\'.toUInt8 :: 'u'.toUInt8 :: digits ∧
          readQuad digits = .ok unit) := by
  obtain ⟨unit, hquad, hunit⟩ := bind_eq_ok_iff.mp hread
  refine ⟨⟨unit, hquad⟩, ?_⟩
  split at hunit
  · contradiction
  · split at hunit
    · obtain ⟨trailing, hhalf, htrailing⟩ := bind_eq_ok_iff.mp hunit
      rw [Except.ok.injEq, Prod.mk.injEq] at htrailing
      obtain ⟨digits, hdigits, hread⟩ := readTrailingHalf_eq_ok hhalf
      exact .inr ⟨htrailing.2.symm, digits, trailing, hdigits, hread⟩
    · rw [Except.ok.injEq, Prod.mk.injEq] at hunit
      exact .inl hunit.2.symm

/-- An escape is a single letter, or a number. -/
theorem readEscape_eq_ok {byte : UInt8} {rest bytes : Bytes} {length : Nat}
    (hread : readEscape (byte :: rest) = .ok (bytes, length)) :
    length = 1 ∧ skipEscape (byte :: rest) = .ok 1 ∨
      Char.ofUInt8 byte = 'u' ∧
        ∃ taken, length = taken + 1 ∧ readNumericEscape rest = .ok (bytes, taken) := by
  unfold readEscape at hread
  dsimp only at hread
  split at hread
  case h_9 hletter =>
    obtain ⟨⟨found, taken⟩, hnumber, hfound⟩ := bind_eq_ok_iff.mp hread
    rw [Except.ok.injEq, Prod.mk.injEq] at hfound
    rw [← hfound.1]
    exact .inr ⟨hletter, taken, hfound.2.symm, hnumber⟩
  case h_10 => contradiction
  all_goals
    rename_i hletter
    rw [Except.ok.injEq, Prod.mk.injEq] at hread
    exact .inl ⟨hread.2.symm, by simp [skipEscape, hletter]⟩

/-- Passing over what is escaped leads to where reading it does. -/
theorem skipQuoted_of_readEscape {rest bytes : Bytes} {length : Nat}
    (hread : readEscape rest = .ok (bytes, length)) :
    skipQuoted ('\\'.toUInt8 :: rest) = skipQuoted (rest.drop length) := by
  cases rest with
  | nil => contradiction
  | cons byte digits =>
      rcases readEscape_eq_ok hread with ⟨rfl, hskip⟩ | ⟨hletter, taken, rfl, hnumber⟩
      · exact skipQuoted_escape hskip
      · obtain ⟨⟨unit, hquad⟩, hlength⟩ := readNumericEscape_eq_ok hnumber
        rw [skipQuoted_escape (skipEscape_numeric hletter hquad)]
        rcases hlength with rfl | ⟨rfl, others, trailing, hothers, htrailing⟩
        · rfl
        · -- The trailing half is passed over as a second escape.
          have hu : Char.ofUInt8 'u'.toUInt8 = 'u' := by decide
          have hrest : digits.drop 10 = others.drop 4 := by
            rw [show 10 = 4 + 6 from rfl, ← List.drop_drop, hothers]
            rfl
          rw [List.drop_succ_cons, hothers, skipQuoted_escape (skipEscape_numeric hu htrailing),
            List.drop_succ_cons, List.drop_succ_cons, hrest]

/-! ## Texts -/

theorem skipQuoted_length {input after : Bytes} (hskip : skipQuoted input = .ok after) :
    after.length < input.length := by
  fun_induction skipQuoted input with
  | case1 => contradiction
  | case2 rest =>
      cases hskip
      exact Nat.lt_succ_self _
  | case3 rest hquote fault hescape => contradiction
  | case4 rest hquote length hescape ih =>
      -- An escape takes its backslash at least.
      have hdrop := ih hskip
      simp only [List.length_drop, List.length_cons] at hdrop ⊢
      omega
  | case5 => contradiction
  | case6 byte rest hquote hbackslash hcontrol ih => exact (ih hskip).trans (Nat.lt_succ_self _)

/-- Passing over a text leads to where reading its content does. -/
theorem skipQuoted_of_readContent {before input content after : Bytes}
    (hread : readContent before input = .ok (content, after)) : skipQuoted input = .ok after := by
  fun_induction readContent before input with
  | case1 => contradiction
  | case2 before rest =>
      rw [Except.ok.injEq, Prod.mk.injEq] at hread
      rw [skipQuoted, if_pos rfl, hread.2]
  | case3 => contradiction
  | case4 before rest bytes length hescape hquote ih =>
      rw [skipQuoted_of_readEscape hescape]
      exact ih hread
  | case5 => contradiction
  | case6 before byte rest hquote hbackslash hcontrol ih =>
      rw [skipQuoted, if_neg hquote, if_neg hbackslash, if_neg hcontrol]
      exact ih hread

theorem skipQuoted_of_readQuoted {input after : Bytes} {text : String}
    (hread : readQuoted input = .ok (text, after)) : skipQuoted input = .ok after := by
  obtain ⟨⟨content, rest⟩, hcontent, htext⟩ := bind_eq_ok_iff.mp hread
  dsimp only at htext
  split at htext
  · rw [Except.ok.injEq, Prod.mk.injEq] at htext
    rw [← htext.2]
    exact skipQuoted_of_readContent hcontent
  · contradiction

/-! ## Numbers -/

section Numbers

variable {positive : Bool} {significand dropped : Nat} {exponent : Int} {input after : Bytes}
  {number : Number}

theorem finishFraction_rest
    (hread : finishFraction positive significand exponent input = .ok (number, after)) :
    after = input := by
  unfold finishFraction at hread
  split at hread
  · rw [Except.ok.injEq, Prod.mk.injEq] at hread
    exact hread.2.symm
  · contradiction

/-- The digits of an exponent that are not read are all that is left of it. -/
theorem dropWhile_readExponentDigits (value : Nat) (input : Bytes) :
    (readExponentDigits value input).2.dropWhile isDigit = input.dropWhile isDigit := by
  induction input generalizing value with
  | nil => rfl
  | cons byte rest ih =>
      rw [readExponentDigits]
      split
      · rename_i hdigit
        rw [ih, List.dropWhile_cons_of_pos hdigit.1]
      · rfl

/-- An exponent is a digit and what follows it, after a sign or without one. -/
theorem readExponent_eq_ok
    (hread : readExponent positive significand exponent input = .ok (number, after)) :
    ∃ first rest, isDigit first = true ∧ after = rest.dropWhile isDigit ∧
      (input = first :: rest ∨
        ∃ sign, (sign = '+'.toUInt8 ∨ sign = '-'.toUInt8) ∧ input = sign :: first :: rest) := by
  unfold readExponent at hread
  split at hread
  rename_i negative digits hdigits
  split at hread
  · contradiction
  · rename_i first rest
    split at hread
    · contradiction
    · rename_i hfirst
      rw [not_not] at hfirst
      have hafter : after = rest.dropWhile isDigit := by
        have hrest := dropWhile_readExponentDigits (first.toNat - 48) rest
        split at hread
        rename_i value left hvalue
        rw [hvalue] at hrest
        rw [← hrest]
        split at hread
        · rename_i byte others
          split at hread
          · rename_i hbyte
            split at hread
            · contradiction
            · rw [Except.ok.injEq, Prod.mk.injEq] at hread
              rw [← hread.2, List.dropWhile_cons_of_pos hbyte]
          · rename_i hbyte
            rw [finishFraction_rest hread, List.dropWhile_cons_of_neg hbyte]
        · exact finishFraction_rest hread
      refine ⟨first, rest, hfirst, hafter, ?_⟩
      rcases input with _ | ⟨byte, others⟩
      · cases hdigits
      · dsimp only at hdigits
        split at hdigits
        · rename_i hplus
          rw [Prod.mk.injEq] at hdigits
          exact .inr ⟨byte, .inl hplus, by rw [hdigits.2]⟩
        · split at hdigits
          · rename_i hminus
            rw [Prod.mk.injEq] at hdigits
            exact .inr ⟨byte, .inr hminus, by rw [hdigits.2]⟩
          · rw [Prod.mk.injEq] at hdigits
            exact .inl hdigits.2

theorem skipExponent_of_readExponent
    (hread : readExponent positive significand exponent input = .ok (number, after)) :
    skipExponent input = .ok after := by
  obtain ⟨first, rest, hfirst, rfl, rfl | ⟨sign, hsign, rfl⟩⟩ := readExponent_eq_ok hread
  · have hsign : ¬ (first = '+'.toUInt8 ∨ first = '-'.toUInt8) := by
      rintro (rfl | rfl)
      · exact absurd hfirst (by decide)
      · exact absurd hfirst (by decide)
    simp [skipExponent, hsign, hfirst]
  · simp [skipExponent, hsign, hfirst]

theorem skipScale_of_readScaled
    (hread : readScaled positive significand exponent input = .ok (number, after)) :
    skipScale input = .ok after := by
  unfold readScaled at hread
  cases input with
  | nil => rw [skipScale, finishFraction_rest hread]
  | cons byte rest =>
      dsimp only at hread
      rw [skipScale]
      split at hread
      · rename_i hletter
        rw [if_pos hletter]
        exact skipExponent_of_readExponent hread
      · rename_i hletter
        rw [if_neg hletter, finishFraction_rest hread]

/-- What follows a number, after its whole part. -/
def skipAfterWhole : Bytes → Except Fault Bytes
  | [] => .ok []
  | byte :: rest =>
    if byte = '.'.toUInt8 then
      if (rest.takeWhile isDigit).isEmpty then .error (.at .invalidNumber (rest.dropWhile isDigit))
      else skipScale (rest.dropWhile isDigit)
    else skipScale (byte :: rest)

theorem skipAfterWhole_of_readAfterWhole
    (hread : readAfterWhole positive significand dropped input = .ok (number, after)) :
    skipAfterWhole input = .ok after := by
  have hplain : ∀ {input}, (if dropped = 0 then .ok (integerOf positive significand, input)
      else finishFraction positive significand dropped input) = .ok (number, after) →
        after = input := by
    intro input hread
    split at hread
    · rw [Except.ok.injEq, Prod.mk.injEq] at hread
      exact hread.2.symm
    · exact finishFraction_rest hread
  unfold readAfterWhole at hread
  cases input with
  | nil => rw [skipAfterWhole, hplain hread]
  | cons byte rest =>
      dsimp only at hread
      rw [skipAfterWhole]
      split at hread
      · rename_i hpoint
        rw [if_pos hpoint]
        unfold readFraction at hread
        dsimp only at hread
        split at hread
        · split at hread <;> contradiction
        · rename_i hdigits
          rw [if_neg hdigits]
          exact skipScale_of_readScaled hread
      · rename_i hpoint
        rw [if_neg hpoint, skipScale]
        split at hread
        · rename_i hletter
          rw [if_pos hletter]
          exact skipExponent_of_readExponent hread
        · rename_i hletter
          rw [if_neg hletter, hplain hread]

theorem skipNumber_cons {byte : UInt8} {rest whole : Bytes} (hbyte : isDigit byte = true)
    (hwhole : (if byte = '0'.toUInt8 then rest else rest.dropWhile isDigit) = whole)
    (hnext : ∀ next ∈ whole.head?, ¬ isDigit next = true) :
    skipNumber (byte :: rest) = skipAfterWhole whole := by
  rw [skipNumber, if_neg (not_not.mpr hbyte)]
  simp only [hwhole]
  cases whole with
  | nil => rfl
  | cons next others =>
      dsimp only
      rw [if_neg (hnext next rfl)]
      rfl

theorem head?_dropWhile_isDigit (input : Bytes) :
    ∀ next ∈ (input.dropWhile isDigit).head?, ¬ isDigit next = true := by
  intro next hnext
  rw [← List.find?_not_eq_head?_dropWhile] at hnext
  simpa using List.find?_some hnext

/-- Passing over a number leads to where reading it does. -/
theorem skipNumber_of_readNumber (hread : readNumber positive input = .ok (number, after)) :
    skipNumber input = .ok after := by
  cases input with
  | nil => contradiction
  | cons byte rest =>
      rw [readNumber.eq_def] at hread
      dsimp only at hread
      split at hread
      · rename_i hzero
        -- A zero stands alone: what follows it is read as the rest of the number.
        have hbyte : isDigit byte = true := by
          rw [hzero]
          decide
        cases rest with
        | nil =>
            rw [skipNumber_cons hbyte (if_pos hzero) (by simp)]
            exact skipAfterWhole_of_readAfterWhole hread
        | cons next others =>
            dsimp only at hread
            split at hread
            · contradiction
            · rename_i hnext
              rw [skipNumber_cons hbyte (if_pos hzero) (by simpa using hnext)]
              exact skipAfterWhole_of_readAfterWhole hread
      · rename_i hzero
        split at hread
        · rename_i hbyte
          rw [skipNumber_cons hbyte (if_neg hzero) (head?_dropWhile_isDigit rest)]
          exact skipAfterWhole_of_readAfterWhole hread
        · contradiction

theorem dropWhile_isDigit_length (input : Bytes) :
    (input.dropWhile isDigit).length ≤ input.length :=
  (List.dropWhile_suffix _).length_le

theorem skipExponent_length (hskip : skipExponent input = .ok after) :
    after.length ≤ input.length := by
  cases input with
  | nil => contradiction
  | cons first input =>
      unfold skipExponent at hskip
      dsimp only at hskip
      split at hskip
      · contradiction
      · rename_i byte rest hbyte
        have hdigits : (byte :: rest).length ≤ (first :: input).length := by
          rw [← hbyte]
          split
          · exact Nat.le_succ _
          · exact le_rfl
        split at hskip
        · cases hskip
          calc
            (rest.dropWhile isDigit).length ≤ rest.length := dropWhile_isDigit_length rest
            _ ≤ (byte :: rest).length := Nat.le_succ _
            _ ≤ (first :: input).length := hdigits
        · contradiction

theorem skipScale_length (hskip : skipScale input = .ok after) : after.length ≤ input.length := by
  cases input with
  | nil =>
      cases hskip
      exact le_rfl
  | cons byte rest =>
      rw [skipScale] at hskip
      split at hskip
      · exact (skipExponent_length hskip).trans (Nat.le_succ _)
      · cases hskip
        exact le_rfl

theorem skipAfterWhole_length (hskip : skipAfterWhole input = .ok after) :
    after.length ≤ input.length := by
  cases input with
  | nil =>
      cases hskip
      exact le_rfl
  | cons byte rest =>
      rw [skipAfterWhole] at hskip
      split at hskip
      · split at hskip
        · contradiction
        · calc
            after.length ≤ (rest.dropWhile isDigit).length := skipScale_length hskip
            _ ≤ rest.length := dropWhile_isDigit_length rest
            _ ≤ (byte :: rest).length := Nat.le_succ _
      · exact skipScale_length hskip

theorem skipNumber_length (hskip : skipNumber input = .ok after) :
    after.length < input.length := by
  cases input with
  | nil => contradiction
  | cons byte rest =>
      have hlength : (if byte = '0'.toUInt8 then rest else rest.dropWhile isDigit).length ≤
          rest.length := by
        split
        · exact le_rfl
        · exact dropWhile_isDigit_length rest
      refine Nat.lt_succ_of_le (le_trans ?_ hlength)
      generalize hwhole : (if byte = '0'.toUInt8 then rest else rest.dropWhile isDigit) = whole
      by_cases hbyte : isDigit byte = true
      · by_cases hnext : ∀ next ∈ whole.head?, ¬ isDigit next = true
        · rw [skipNumber_cons hbyte hwhole hnext] at hskip
          exact skipAfterWhole_length hskip
        · cases whole with
          | nil => simp at hnext
          | cons next others => simp_all [skipNumber]
      · simp [skipNumber, hbyte] at hskip

end Numbers

end FreightPromotion.Json
