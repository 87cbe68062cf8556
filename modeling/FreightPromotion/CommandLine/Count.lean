/-!
# Counts on the command line

A count is written in decimal digits, with or without a plus sign, and has to fit
in 64 bits.  The digits are read from the left, and the first fault is reported.
-/

namespace FreightPromotion.CommandLine

/-- Why a text is no count. -/
inductive CountFault where
  | empty
  | invalidDigit
  | tooLarge
deriving DecidableEq, Repr

/-- The wording of a fault. -/
def CountFault.message : CountFault → String
  | .empty => "cannot parse integer from empty string"
  | .invalidDigit => "invalid digit found in string"
  | .tooLarge => "number too large to fit in target type"

/-- What counts have to stay below. -/
def countLimit : Nat := Nat.pow 2 64

/-- Reads digits that follow others, which come to `total`. -/
def readDigits (total : Nat) : List Char → Except CountFault Nat
  | [] => .ok total
  | character :: rest =>
    if character.isDigit then
      let next := total * 10 + (character.toNat - '0'.toNat)
      if next < countLimit then readDigits next rest else .error .tooLarge
    else .error .invalidDigit

/-- Reads a count. -/
def readCount (text : String) : Except CountFault Nat :=
  match text.toList with
  | [] => .error .empty
  | ['+'] => .error .invalidDigit
  | '+' :: digits => readDigits 0 digits
  | digits => readDigits 0 digits

end FreightPromotion.CommandLine
