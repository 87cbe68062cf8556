import FreightPromotion.Proofs.Json.Words
import Mathlib.Logic.Relation

/-!
# Passing over a value

Passing over a value is a run of a machine with a stack of open brackets, and
`Skipping.Step` is one step of it.  A step never looks below the bracket that is
innermost (`Skipping.Step.inside`) and uses up a part of the input
(`Skipping.Step.measure_lt`), so that `skipLoop` has enough steps for every input.

Hence a value can be passed over exactly when the machine gets over it
(`skipValue_eq_ok_iff`), whatever brackets are open around it.
-/

namespace FreightPromotion.Json

open FreightPromotion.Text (Bytes)
open Relation (ReflTransGen)

/-- A place in a value that is passed over. -/
structure Skipping where
  state : SkipState
  brackets : List Bracket
  input : Bytes

/-- An opened bracket may be followed by a value without a byte being read. -/
def SkipState.slack : SkipState → Nat
  | .opened => 1
  | .value => 0
  | .ended => 0

namespace Skipping

/-- One step over a value. -/
inductive Step : Skipping → Skipping → Prop
  | word {brackets : List Bracket} {input rest after : Bytes} {byte : UInt8}
      (hnext : skipBlanks input = byte :: rest) (hword : skipSimple byte rest = .ok (none, after)) :
      Step ⟨.value, brackets, input⟩ ⟨.ended, brackets, after⟩
  | opening {brackets : List Bracket} {input rest after : Bytes} {byte : UInt8}
      {bracket : Bracket} (hnext : skipBlanks input = byte :: rest)
      (hopening : skipSimple byte rest = .ok (some bracket, after)) :
      Step ⟨.value, brackets, input⟩ ⟨.opened, bracket :: brackets, after⟩
  | closing {state : SkipState} {brackets : List Bracket} {input rest : Bytes} {byte : UInt8}
      {bracket : Bracket} (hstate : state ≠ .value) (hnext : skipBlanks input = byte :: rest)
      (hclosed : bracket.closedBy byte = true) :
      Step ⟨state, bracket :: brackets, input⟩ ⟨.ended, brackets, rest⟩
  | firstItem {brackets : List Bracket} {input rest : Bytes} {byte : UInt8}
      (hnext : skipBlanks input = byte :: rest) (hclosed : Bracket.list.closedBy byte = false) :
      Step ⟨.opened, .list :: brackets, input⟩ ⟨.value, .list :: brackets, byte :: rest⟩
  | firstMember {brackets : List Bracket} {input rest value : Bytes} {byte : UInt8}
      (hnext : skipBlanks input = byte :: rest) (hclosed : Bracket.object.closedBy byte = false)
      (hkey : skipKey (byte :: rest) = .ok value) :
      Step ⟨.opened, .object :: brackets, input⟩ ⟨.value, .object :: brackets, value⟩
  | nextItem {brackets : List Bracket} {input rest : Bytes}
      (hnext : skipBlanks input = ','.toUInt8 :: rest) :
      Step ⟨.ended, .list :: brackets, input⟩ ⟨.value, .list :: brackets, rest⟩
  | nextMember {brackets : List Bracket} {input rest value : Bytes}
      (hnext : skipBlanks input = ','.toUInt8 :: rest) (hkey : skipKey rest = .ok value) :
      Step ⟨.ended, .object :: brackets, input⟩ ⟨.value, .object :: brackets, value⟩

/-- What is left to do: two units for each byte. -/
def measure (place : Skipping) : Nat :=
  2 * place.input.length + place.state.slack

/-- The same place while other brackets are open around it. -/
def inside (outer : List Bracket) (place : Skipping) : Skipping :=
  { place with brackets := place.brackets ++ outer }

/-- Passing over what is left, in a given number of steps. -/
def finish (place : Skipping) (steps : Nat) : Except Fault Bytes :=
  skipLoop steps place.state place.brackets place.input

variable {place next : Skipping} {steps : Nat}

theorem Step.inside (hstep : Step place next) (outer : List Bracket) :
    Step (place.inside outer) (next.inside outer) := by
  cases hstep with
  | word hnext hword => exact .word hnext hword
  | opening hnext hopening => exact .opening hnext hopening
  | closing hstate hnext hclosed => exact .closing hstate hnext hclosed
  | firstItem hnext hclosed => exact .firstItem hnext hclosed
  | firstMember hnext hclosed hkey => exact .firstMember hnext hclosed hkey
  | nextItem hnext => exact .nextItem hnext
  | nextMember hnext hkey => exact .nextMember hnext hkey

theorem skipSimple_length {byte : UInt8} {rest after : Bytes} {bracket? : Option Bracket}
    (hskip : skipSimple byte rest = .ok (bracket?, after)) : after.length ≤ rest.length := by
  have hletters : ∀ letters, (readLetters letters rest).map (none, ·) = .ok (bracket?, after) →
      after.length ≤ rest.length := by
    intro letters hread
    obtain ⟨left, hleft, hpair⟩ := map_eq_ok_iff.mp hread
    cases hpair
    exact readLetters_length hleft
  have hnumber : ∀ input, (skipNumber input).map (none, ·) = .ok (bracket?, after) →
      after.length < input.length := by
    intro input hnumber
    obtain ⟨left, hleft, hpair⟩ := map_eq_ok_iff.mp hnumber
    cases hpair
    exact skipNumber_length hleft
  unfold skipSimple at hskip
  split at hskip
  · exact hletters _ hskip
  · exact hletters _ hskip
  · exact hletters _ hskip
  · exact (hnumber _ hskip).le
  · obtain ⟨left, hleft, hpair⟩ := map_eq_ok_iff.mp hskip
    cases hpair
    exact (skipQuoted_length hleft).le
  · cases hskip
    exact le_rfl
  · cases hskip
    exact le_rfl
  · split at hskip
    · exact Nat.le_of_lt_succ (hnumber _ hskip)
    · contradiction

theorem skipKey_length {input value : Bytes} (hskip : skipKey input = .ok value) :
    value.length < input.length := by
  unfold skipKey at hskip
  split at hskip
  · contradiction
  · rename_i byte rest hnext
    split at hskip
    · contradiction
    · obtain ⟨after, hquoted, hcolon⟩ := bind_eq_ok_iff.mp hskip
      split at hcolon
      · contradiction
      · rename_i colon others hafter
        split at hcolon
        · cases hcolon
          calc
            value.length < after.length := skipBlanks_cons_length hafter
            _ < rest.length := skipQuoted_length hquoted
            _ < input.length := skipBlanks_cons_length hnext
        · contradiction

/-- Every step uses up a part of what is left. -/
theorem Step.measure_lt (hstep : Step place next) : next.measure < place.measure := by
  unfold measure
  cases hstep with
  | word hnext hword =>
      have hrest := skipBlanks_cons_length hnext
      have hafter := skipSimple_length hword
      simp only [SkipState.slack]
      omega
  | opening hnext hopening =>
      have hrest := skipBlanks_cons_length hnext
      have hafter := skipSimple_length hopening
      simp only [SkipState.slack]
      omega
  | closing hstate hnext hclosed =>
      have hrest := skipBlanks_cons_length hnext
      simp only [SkipState.slack]
      omega
  | firstItem hnext hclosed =>
      have hrest := skipBlanks_cons_length hnext
      simp only [SkipState.slack, List.length_cons]
      omega
  | firstMember hnext hclosed hkey =>
      have hrest := skipBlanks_cons_length hnext
      have hvalue := skipKey_length hkey
      simp only [SkipState.slack, List.length_cons] at hvalue ⊢
      omega
  | nextItem hnext =>
      have hrest := skipBlanks_cons_length hnext
      simp only [SkipState.slack]
      omega
  | nextMember hnext hkey =>
      have hrest := skipBlanks_cons_length hnext
      have hvalue := skipKey_length hkey
      simp only [SkipState.slack]
      omega

theorem closedBy_comma (bracket : Bracket) : bracket.closedBy ','.toUInt8 = false := by
  cases bracket <;> decide

/-- A step is what `skipLoop` does first. -/
theorem Step.finish_eq (hstep : Step place next) (steps : Nat) :
    place.finish (steps + 1) = next.finish steps := by
  cases hstep with
  | word hnext hword => simp [finish, skipLoop, withNext, hnext, hword, bind, Except.bind]
  | opening hnext hopening => simp [finish, skipLoop, withNext, hnext, hopening, bind, Except.bind]
  | @closing state _ _ _ _ _ hstate hnext hclosed =>
      cases state with
      | value => contradiction
      | opened => simp [finish, skipLoop, hnext, hclosed]
      | ended => simp [finish, skipLoop, hnext, hclosed]
  | firstItem hnext hclosed => simp [finish, skipLoop, hnext, hclosed]
  | firstMember hnext hclosed hkey =>
      simp [finish, skipLoop, hnext, hclosed, hkey, bind, Except.bind]
  | nextItem hnext => simp [finish, skipLoop, hnext, closedBy_comma]
  | nextMember hnext hkey => simp [finish, skipLoop, hnext, hkey, closedBy_comma, bind, Except.bind]

/-- The place where nothing is open and a bracket or a value has just ended. -/
def finished (after : Bytes) : Skipping :=
  ⟨.ended, [], after⟩

/-- Just after an opening bracket, a bracket is open. -/
def Sound (place : Skipping) : Prop :=
  place.state = .opened → place.brackets ≠ []

theorem Step.sound (hstep : Step place next) : next.Sound := by
  cases hstep <;> simp [Sound]

/-- Where `skipLoop` succeeds it has finished or takes a step. -/
theorem eq_finished_or_step {after : Bytes} (hsound : place.Sound)
    (hfinish : place.finish (steps + 1) = .ok after) :
    place = finished after ∨ ∃ next, Step place next := by
  obtain ⟨state, brackets, input⟩ := place
  unfold finish at hfinish
  cases state with
  | value =>
      cases hnext : skipBlanks input with
      | nil => simp [skipLoop, withNext, hnext] at hfinish
      | cons byte rest =>
          simp only [skipLoop, withNext, hnext] at hfinish
          obtain ⟨⟨bracket?, left⟩, hsimple, hleft⟩ := bind_eq_ok_iff.mp hfinish
          cases bracket? with
          | none => exact .inr ⟨_, .word hnext hsimple⟩
          | some bracket => exact .inr ⟨_, .opening hnext hsimple⟩
  | opened =>
      cases brackets with
      | nil => exact absurd rfl (hsound rfl)
      | cons bracket brackets =>
          cases hnext : skipBlanks input with
          | nil => simp [skipLoop, hnext] at hfinish
          | cons byte rest =>
              by_cases hclosed : bracket.closedBy byte = true
              · exact .inr ⟨_, .closing nofun hnext hclosed⟩
              · rw [Bool.not_eq_true] at hclosed
                cases bracket with
                | list => exact .inr ⟨_, .firstItem hnext hclosed⟩
                | object =>
                    simp only [skipLoop, hnext, hclosed] at hfinish
                    obtain ⟨value, hkey, hvalue⟩ := bind_eq_ok_iff.mp hfinish
                    exact .inr ⟨_, .firstMember hnext hclosed hkey⟩
  | ended =>
      cases brackets with
      | nil =>
          cases hfinish
          exact .inl rfl
      | cons bracket brackets =>
          cases hnext : skipBlanks input with
          | nil => simp [skipLoop, hnext] at hfinish
          | cons byte rest =>
              by_cases hclosed : bracket.closedBy byte = true
              · exact .inr ⟨_, .closing nofun hnext hclosed⟩
              · by_cases hcomma : byte = ','.toUInt8
                · subst hcomma
                  cases bracket with
                  | list => exact .inr ⟨_, .nextItem hnext⟩
                  | object =>
                      simp only [skipLoop, hnext, hclosed] at hfinish
                      obtain ⟨value, hkey, hvalue⟩ := bind_eq_ok_iff.mp hfinish
                      exact .inr ⟨_, .nextMember hnext hkey⟩
                · simp [skipLoop, hnext, hclosed, hcomma] at hfinish

/-- `skipLoop` follows the steps to their end, given enough of them. -/
theorem finish_of_reaches {after : Bytes} (hreach : ReflTransGen Step place (finished after))
    (hsteps : place.measure < steps) : place.finish steps = .ok after := by
  induction hreach using ReflTransGen.head_induction_on generalizing steps with
  | refl =>
      obtain ⟨steps, rfl⟩ := Nat.exists_eq_add_of_lt hsteps
      rw [finish, finished, skipLoop]
  | @head place next hstep hreach ih =>
      cases steps with
      | zero => contradiction
      | succ steps =>
          rw [hstep.finish_eq]
          -- One step is spent, and the measure has gone down by one at least.
          exact ih (Nat.lt_of_lt_of_le hstep.measure_lt (Nat.le_of_lt_succ hsteps))

/-- Where it succeeds, the steps lead to the end. -/
theorem reaches_of_finish {after : Bytes} (hsound : place.Sound)
    (hfinish : place.finish steps = .ok after) : ReflTransGen Step place (finished after) := by
  induction steps generalizing place with
  | zero =>
      unfold finish skipLoop at hfinish
      contradiction
  | succ steps ih =>
      rcases eq_finished_or_step hsound hfinish with rfl | ⟨next, hstep⟩
      · exact .refl
      · rw [hstep.finish_eq] at hfinish
        exact .head hstep (ih hstep.sound hfinish)

end Skipping

/-! ## Values -/

/-- The next value of `input` ends before `after`. -/
def Passes (input after : Bytes) : Prop :=
  ∀ brackets, ReflTransGen Skipping.Step ⟨.value, brackets, input⟩ ⟨.ended, brackets, after⟩

variable {input after : Bytes}

/-- Passing over a value succeeds exactly when the steps over it lead to its end. -/
theorem skipValue_eq_ok_iff : skipValue input = .ok after ↔ Passes input after := by
  constructor
  · intro hskip brackets
    have hfinish : (⟨.value, [], input⟩ : Skipping).finish (2 * input.length + 2) = .ok after :=
      hskip
    have hreach : ReflTransGen Skipping.Step ⟨.value, [], input⟩ (.finished after) :=
      Skipping.reaches_of_finish nofun hfinish
    -- The run took place with nothing open around it, and so it does inside the brackets.
    exact hreach.lift (Skipping.inside brackets) fun _ _ hstep => hstep.inside brackets
  · intro hpasses
    exact Skipping.finish_of_reaches (hpasses []) (by simp [Skipping.measure, SkipState.slack])

/-- A value takes a first step. -/
theorem Passes.first_step (hpasses : Passes input after) (brackets : List Bracket) :
    ∃ next, Skipping.Step ⟨.value, brackets, input⟩ next ∧
      ReflTransGen Skipping.Step next ⟨.ended, brackets, after⟩ := by
  rcases (hpasses brackets).cases_head with hend | hstep
  · cases hend
  · exact hstep

theorem Skipping.measure_le {place next : Skipping} (hreach : ReflTransGen Step place next) :
    next.measure ≤ place.measure := by
  induction hreach with
  | refl => exact le_rfl
  | tail _ hstep ih => exact hstep.measure_lt.le.trans ih

theorem Passes.length_lt (hpasses : Passes input after) : after.length < input.length := by
  obtain ⟨next, hstep, hreach⟩ := hpasses.first_step []
  have hmeasure : (Skipping.finished after).measure < Skipping.measure ⟨.value, [], input⟩ :=
    (Skipping.measure_le hreach).trans_lt hstep.measure_lt
  simpa [Skipping.measure, Skipping.finished, SkipState.slack] using hmeasure

/-- Blanks before a value do not matter. -/
theorem passes_skipBlanks : Passes (skipBlanks input) after ↔ Passes input after := by
  have hstep : ∀ {first second : Bytes}, skipBlanks first = skipBlanks second →
      Passes first after → Passes second after := by
    intro first second hblanks hpasses brackets
    obtain ⟨next, hstep, hreach⟩ := hpasses.first_step brackets
    refine .head ?_ hreach
    cases hstep with
    | word hnext hword => exact .word (hblanks ▸ hnext) hword
    | opening hnext hopening => exact .opening (hblanks ▸ hnext) hopening
    | closing hstate => contradiction
  exact ⟨hstep (skipBlanks_skipBlanks input), hstep (skipBlanks_skipBlanks input).symm⟩

/-- A value without brackets is passed over in one step. -/
theorem passes_word {rest : Bytes} {byte : UInt8} (hnext : skipBlanks input = byte :: rest)
    (hword : skipSimple byte rest = .ok (none, after)) : Passes input after :=
  fun _ => .single (.word hnext hword)

end FreightPromotion.Json
