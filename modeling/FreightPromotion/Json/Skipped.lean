import FreightPromotion.Json.Lexeme

/-!
# Values that are passed over

A record ignores the members that it does not know.  Their values are checked
for their spelling only: nesting has no limit, a text may hold any bytes, and a
number any magnitude.  The brackets that are open are kept in a list, innermost
first.
-/

namespace FreightPromotion.Json

open FreightPromotion.Text (Bytes)

/-- An open bracket. -/
inductive Bracket where
  | list
  | object
deriving DecidableEq

/-- Whether `byte` closes the bracket. -/
def Bracket.closedBy : Bracket → UInt8 → Bool
  | .list, byte => byte = ']'.toUInt8
  | .object, byte => byte = '\x7d'.toUInt8

/-- The fault of a document that ends inside the bracket. -/
def Bracket.unfinished : Bracket → Cause
  | .list => .unfinishedList
  | .object => .unfinishedObject

/-- The fault of a value in the bracket that no comma follows. -/
def Bracket.expectedComma : Bracket → Cause
  | .list => .expectedCommaInList
  | .object => .expectedCommaInObject

/-- A value without brackets, or an opening bracket with what follows it. -/
def skipSimple (byte : UInt8) (rest : Bytes) : Except Fault (Option Bracket × Bytes) :=
  match Char.ofUInt8 byte with
  | 'n' => (readLetters ['u', 'l', 'l'] rest).map (none, ·)
  | 't' => (readLetters ['r', 'u', 'e'] rest).map (none, ·)
  | 'f' => (readLetters ['a', 'l', 's', 'e'] rest).map (none, ·)
  | '-' => (skipNumber rest).map (none, ·)
  | '\"' => (skipQuoted rest).map (none, ·)
  | '[' => .ok (some .list, rest)
  | '\x7b' => .ok (some .object, rest)
  | _ =>
    if isDigit byte then (skipNumber (byte :: rest)).map (none, ·)
    else .error (.at .expectedValue (byte :: rest))

/-- The key of a member and its colon, where a member has to come. -/
def skipKey (input : Bytes) : Except Fault Bytes :=
  match skipBlanks input with
  | [] => .error (.at .unfinishedObject [])
  | byte :: rest =>
    if byte ≠ '\"'.toUInt8 then .error (.at .keyNotText (byte :: rest))
    else do
      let after ← skipQuoted rest
      match skipBlanks after with
      | [] => .error (.at .unfinishedObject [])
      | colon :: value =>
        if colon = ':'.toUInt8 then .ok value else .error (.at .expectedColon (colon :: value))

/-- The place in a skipped value. -/
inductive SkipState where
  /-- A value is due. -/
  | value
  /-- The innermost bracket has just been opened. -/
  | opened
  /-- A value has just ended. -/
  | ended

/-- Passes over what is left of a value while the brackets in `enclosing` are
open.  Every second step reads a byte, which bounds the number of steps. -/
def skipLoop : Nat → SkipState → List Bracket → Bytes → Except Fault Bytes
  | 0, _, _, input => .error (.at .unfinishedValue input)
  | _ + 1, .ended, [], input => .ok input
  | _ + 1, .opened, [], input => .ok input
  | steps + 1, .value, enclosing, input =>
    withNext input fun byte rest => do
      match ← skipSimple byte rest with
      | (none, after) => skipLoop steps .ended enclosing after
      | (some bracket, after) => skipLoop steps .opened (bracket :: enclosing) after
  | steps + 1, .opened, bracket :: enclosing, input =>
    match skipBlanks input with
    | [] => .error (.at bracket.unfinished [])
    | byte :: rest =>
      if bracket.closedBy byte then skipLoop steps .ended enclosing rest
      else
        match bracket with
        | .list => skipLoop steps .value (bracket :: enclosing) (byte :: rest)
        | .object => do
          let value ← skipKey (byte :: rest)
          skipLoop steps .value (bracket :: enclosing) value
  | steps + 1, .ended, bracket :: enclosing, input =>
    match skipBlanks input with
    | [] => .error (.at bracket.unfinished [])
    | byte :: rest =>
      if bracket.closedBy byte then skipLoop steps .ended enclosing rest
      else if byte ≠ ','.toUInt8 then .error (.at bracket.expectedComma (byte :: rest))
      else
        match bracket with
        | .list => skipLoop steps .value (bracket :: enclosing) rest
        | .object => do
          let value ← skipKey rest
          skipLoop steps .value (bracket :: enclosing) value

/-- What follows the next value. -/
def skipValue (input : Bytes) : Except Fault Bytes :=
  skipLoop (2 * input.length + 2) .value [] input

end FreightPromotion.Json
