import FreightPromotion.Text.Quoted
import Mathlib.Data.List.Basic

/-!
# Reading quoted texts

What stands between quotes is read character by character (`readCharacter`): a backslash
starts an escape, and every other character stands for itself.  Reading undoes escaping,
whatever comes next (`readCharacter_escape`), so the escapes of two texts part where the
texts do.

No escape starts with a quote, so the first one that is no part of an escape is the one
that closes.  A quoted text is therefore told from all others even if more text follows
(`quote_append_inj`).  It also stays on one line (`lineFeed_notMem_quote`).
-/

namespace FreightPromotion.Text

/-! ## Hexadecimal numbers -/

/-- The number that hexadecimal digits stand for. -/
def hexNumber (digits : List Char) : Nat :=
  digits.foldl (fun number digit => number * 16 + (hexValue? digit).getD 0) 0

theorem hexValue?_digitChar : ∀ value < 16, hexValue? (Nat.digitChar value) = some value := by
  decide

theorem hexNumber_toDigits (number : Nat) : hexNumber (Nat.toDigits 16 number) = number := by
  induction number using Nat.strongRecOn with
  | ind number ih =>
      rcases Nat.lt_or_ge number 16 with hsmall | hlarge
      · rw [Nat.toDigits_of_lt_base hsmall]
        simp [hexNumber, hexValue?_digitChar number hsmall]
      · have hearlier : hexNumber (Nat.toDigits 16 (number / 16)) = number / 16 :=
          ih _ (Nat.div_lt_self (by omega) (by decide))
        have hlast := hexValue?_digitChar (number % 16) (Nat.mod_lt _ (by decide))
        unfold hexNumber at hearlier
        rw [Nat.toDigits_of_base_le (by decide) hlarge, hexNumber, List.foldl_append, hearlier,
          List.foldl_cons, List.foldl_nil, hlast, Option.getD_some]
        omega

theorem exists_digitChar_of_mem_toDigits {number : Nat} {digit : Char}
    (hdigit : digit ∈ Nat.toDigits 16 number) : ∃ value < 16, digit = Nat.digitChar value := by
  induction number using Nat.strongRecOn with
  | ind number ih =>
      rcases Nat.lt_or_ge number 16 with hsmall | hlarge
      · rw [Nat.toDigits_of_lt_base hsmall, List.mem_singleton] at hdigit
        exact ⟨number, hsmall, hdigit⟩
      · rw [Nat.toDigits_of_base_le (by decide) hlarge, List.mem_append, List.mem_singleton]
          at hdigit
        rcases hdigit with hearlier | hlast
        · exact ih _ (Nat.div_lt_self (by omega) (by decide)) hearlier
        · exact ⟨number % 16, Nat.mod_lt _ (by decide), hlast⟩

theorem ne_of_mem_toDigits {number : Nat} {digit other : Char}
    (hdigit : digit ∈ Nat.toDigits 16 number)
    (hother : ∀ value < 16, Nat.digitChar value ≠ other) : digit ≠ other := by
  obtain ⟨value, hvalue, rfl⟩ := exists_digitChar_of_mem_toDigits hdigit
  exact hother value hvalue

/-! ## Characters between quotes -/

/-- Reads one character between quotes, which is left as it is or escaped. -/
def readCharacter : List Char → Option (Char × List Char)
  | '\\' :: 'n' :: rest => some ('\n', rest)
  | '\\' :: 'r' :: rest => some ('\r', rest)
  | '\\' :: 't' :: rest => some ('\t', rest)
  | '\\' :: '0' :: rest => some ('\x00', rest)
  | '\\' :: 'u' :: '\x7b' :: rest =>
    some (Char.ofNat (hexNumber (rest.takeWhile (· ≠ '\x7d'))),
      (rest.dropWhile (· ≠ '\x7d')).drop 1)
  | '\\' :: character :: rest => some (character, rest)
  | character :: rest => some (character, rest)
  | [] => none

section Escape

variable (character : Char) (rest : List Char)

theorem readCharacter_plain (hcharacter : character ≠ '\\') :
    readCharacter (character :: rest) = some (character, rest) := by
  unfold readCharacter
  split <;> simp_all

/-- The digits of a code point end at the closing brace. -/
theorem readCharacter_hexadecimal :
    readCharacter ('\\' :: 'u' :: '\x7b' :: (Nat.toDigits 16 character.toNat ++ '\x7d' :: rest)) =
      some (character, rest) := by
  have hdigits : ∀ digit ∈ Nat.toDigits 16 character.toNat, (digit ≠ '\x7d' : Bool) = true := by
    intro digit hdigit
    exact decide_eq_true (ne_of_mem_toDigits hdigit (by decide))
  rw [readCharacter, List.takeWhile_append_of_pos hdigits, List.dropWhile_append_of_pos hdigits]
  simp [hexNumber_toDigits]

theorem readCharacter_escape :
    readCharacter ((escape character).toList ++ rest) = some (character, rest) := by
  unfold escape
  split_ifs with hquote hbackslash hlineFeed hreturn htab hnul hconcealed
  · rw [hquote]; rfl
  · rw [hbackslash]; rfl
  · rw [hlineFeed]; rfl
  · rw [hreturn]; rfl
  · rw [htab]; rfl
  · rw [hnul]; rfl
  · simpa [hexadecimal] using readCharacter_hexadecimal character rest
  · simpa using readCharacter_plain character rest hbackslash

/-- An escape does not start with the quote that closes. -/
theorem head?_escape_append : ((escape character).toList ++ rest).head? ≠ some '\"' := by
  unfold escape
  split_ifs with hquote
  all_goals simp [hquote]

theorem lineFeed_notMem_escape : '\n' ∉ (escape character).toList := by
  have hdigits : '\n' ∉ Nat.toDigits 16 character.toNat :=
    fun hmem => ne_of_mem_toDigits hmem (by decide) rfl
  unfold escape
  split_ifs with hquote hbackslash hlineFeed hreturn htab hnul hconcealed
  -- The escapes of two characters, then the numbers and the characters left as they are.
  any_goals decide
  · simpa [hexadecimal] using hdigits
  · simpa using Ne.symm hlineFeed

end Escape

/-! ## Quoted texts -/

theorem toList_quote (text : String) :
    (quote text).toList =
      '\"' :: (text.toList.flatMap (fun character => (escape character).toList) ++ ['\"']) := by
  simp [quote, String.toList_join, List.flatMap_map]

/-- What has been escaped is told from all else even if the closing quote and more follow. -/
theorem escapes_append_inj {first second rest other : List Char}
    (heq : first.flatMap (fun character => (escape character).toList) ++ '\"' :: rest =
      second.flatMap (fun character => (escape character).toList) ++ '\"' :: other) :
    first = second ∧ rest = other := by
  induction first generalizing second with
  | nil =>
      cases second with
      | nil => exact ⟨rfl, (List.cons.inj heq).2⟩
      | cons character second =>
          rw [List.flatMap_cons, List.append_assoc] at heq
          exact absurd (congrArg List.head? heq).symm (head?_escape_append character _)
  | cons character first ih =>
      rw [List.flatMap_cons, List.append_assoc] at heq
      cases second with
      | nil => exact absurd (congrArg List.head? heq) (head?_escape_append character _)
      | cons next second =>
          rw [List.flatMap_cons, List.append_assoc] at heq
          have hread := congrArg readCharacter heq
          rw [readCharacter_escape, readCharacter_escape, Option.some.injEq, Prod.mk.injEq] at hread
          obtain ⟨rfl, hrest⟩ := hread
          obtain ⟨rfl, rfl⟩ := ih hrest
          exact ⟨rfl, rfl⟩

/-- A quoted text ends at its closing quote, and no other text is quoted like it. -/
theorem quote_append_inj {first second : String} {rest other : List Char}
    (heq : (quote first).toList ++ rest = (quote second).toList ++ other) :
    first = second ∧ rest = other := by
  rw [toList_quote, toList_quote, List.cons_append, List.cons_append, List.append_assoc,
    List.append_assoc] at heq
  obtain ⟨htexts, hrest⟩ := escapes_append_inj (List.cons.inj heq).2
  exact ⟨String.toList_inj.mp htexts, hrest⟩

theorem quote_injective : Function.Injective quote := by
  intro first second heq
  have htexts : (quote first).toList ++ [] = (quote second).toList ++ [] := by rw [heq]
  exact (quote_append_inj htexts).1

theorem lineFeed_notMem_quote (text : String) : '\n' ∉ (quote text).toList := by
  simp [toList_quote, lineFeed_notMem_escape]

end FreightPromotion.Text
