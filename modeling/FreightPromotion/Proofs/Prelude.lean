import Mathlib.Data.List.Basic

/-!
# Steps, entries and digits

Reading goes by steps each of which may fail, and what has been read is often kept as a list of
entries, each under a key.  Here is what holds of both whatever is read, and of the digits in which
numbers are written.
-/

namespace FreightPromotion

/-! ## Steps that succeed -/

section Steps

variable {ε α β : Type} {step : Except ε α} {result : β}

@[simp]
theorem bind_eq_ok_iff {next : α → Except ε β} :
    step >>= next = .ok result ↔ ∃ value, step = .ok value ∧ next value = .ok result := by
  cases step <;> simp [bind, Except.bind]

@[simp]
theorem map_eq_ok_iff {change : α → β} :
    step.map change = .ok result ↔ ∃ value, step = .ok value ∧ change value = result := by
  cases step <;> simp [Except.map]

theorem toOption_eq_some_iff {value : α} : step.toOption = some value ↔ step = .ok value := by
  cases step <;> simp [Except.toOption]

theorem exists_of_isOk (hok : step.isOk = true) : ∃ value, step = .ok value := by
  cases step with
  | ok value => exact ⟨value, rfl⟩
  | error => contradiction

end Steps

/-! ## Entries under keys -/

section Entries

variable {κ α : Type} [DecidableEq κ] {entries : List (κ × α)} {keys : List κ} {key : κ}

/-- Leaving out the entries under other keys does not change what is found under a key. -/
theorem lookup_filter_mem (hkey : key ∈ keys) :
    (entries.filter (·.1 ∈ keys)).lookup key = entries.lookup key := by
  induction entries with
  | nil => rfl
  | cons entry entries ih =>
      obtain ⟨entered, value⟩ := entry
      by_cases hentered : entered ∈ keys
      · rw [List.filter_cons_of_pos (by simpa using hentered), List.lookup_cons,
          List.lookup_cons, ih]
      · have hother : (key == entered) = false := by
          refine beq_false_of_ne ?_
          rintro rfl
          exact hentered hkey
        rw [List.filter_cons_of_neg (by simpa using hentered), ih, List.lookup_cons, hother]

end Entries

/-! ## Digits -/

theorem isDigit_of_mem_toString {number : Nat} {character : Char}
    (hmem : character ∈ (toString number).toList) : character.isDigit := by
  rw [Nat.toString_eq_ofList_toDigits, String.toList_ofList] at hmem
  exact Nat.isDigit_of_mem_toDigits (by decide) (by decide) hmem

end FreightPromotion
