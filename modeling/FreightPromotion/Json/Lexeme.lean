import FreightPromotion.Decimal.Rounded
import FreightPromotion.Json.Fault

/-!
# The words of a document

Blanks, literals, texts and numbers.  A text or number is read in two ways: for
its value, with every rule checked, or only to be passed over, where its
spelling is checked and its value is not.  Each function returns what follows
the word.
-/

namespace FreightPromotion.Json

open FreightPromotion.Text (Bytes)

/-- Space, tab, line feed and carriage return separate words. -/
def isBlank (byte : UInt8) : Bool :=
  byte = 32 || byte = 9 || byte = 10 || byte = 13

/-- The rest of the input from its first byte that is not blank. -/
def skipBlanks (input : Bytes) : Bytes :=
  input.dropWhile isBlank

/-- Looks at the first byte of the next value. -/
def withNext {α : Type} (input : Bytes) (next : UInt8 → Bytes → Except Fault α) :
    Except Fault α :=
  match skipBlanks input with
  | [] => .error (.at .unfinishedValue [])
  | byte :: rest => next byte rest

/-! ## Literals -/

/-- Passes over the remaining letters of a literal. -/
def readLetters : List Char → Bytes → Except Fault Bytes
  | [], input => .ok input
  | _ :: _, [] => .error (.before .unfinishedValue [])
  | letter :: letters, byte :: rest =>
    if byte = letter.toUInt8 then readLetters letters rest
    else .error (.before .expectedLiteral rest)

/-! ## Escapes -/

/-- The value of a hexadecimal digit. -/
def digitValue? (byte : UInt8) : Option Nat :=
  if 48 ≤ byte ∧ byte ≤ 57 then some (byte.toNat - 48)
  else if 97 ≤ byte ∧ byte ≤ 102 then some (byte.toNat - 87)
  else if 65 ≤ byte ∧ byte ≤ 70 then some (byte.toNat - 55)
  else none

/-- The number written by four hexadecimal digits. -/
def readQuad : Bytes → Except Fault Nat
  | first :: second :: third :: fourth :: rest =>
    match digitValue? first, digitValue? second, digitValue? third, digitValue? fourth with
    | some a, some b, some c, some d => .ok (((a * 16 + b) * 16 + c) * 16 + d)
    | _, _, _, _ => .error (.before .invalidEscape rest)
  | _ => .error (.before .unfinishedText [])

/-- The first halves of surrogate pairs. -/
def isLeadingSurrogate (unit : Nat) : Bool :=
  0xd800 ≤ unit && unit ≤ 0xdbff

/-- The second halves of surrogate pairs. -/
def isTrailingSurrogate (unit : Nat) : Bool :=
  0xdc00 ≤ unit && unit ≤ 0xdfff

/-- The trailing half that must follow a leading half as an escape of its own. -/
def readTrailingHalf : Bytes → Except Fault Nat
  | [] => .error (.before .unfinishedText [])
  | backslash :: rest =>
    if backslash ≠ '\\'.toUInt8 then .error (.before .unpairedEscape rest)
    else
      match rest with
      | [] => .error (.before .unfinishedText [])
      | letter :: digits =>
        if letter ≠ 'u'.toUInt8 then .error (.before .unpairedEscape digits)
        else do
          let unit ← readQuad digits
          if isTrailingSurrogate unit then .ok unit
          else .error (.before .loneSurrogate (digits.drop 4))

/-- The bytes that an escape by number stands for, and the number of bytes that
it takes after the letter `u`. -/
def readNumericEscape (input : Bytes) : Except Fault (Bytes × Nat) := do
  let unit ← readQuad input
  if isTrailingSurrogate unit then .error (.before .loneSurrogate (input.drop 4))
  else if isLeadingSurrogate unit then
    let trailing ← readTrailingHalf (input.drop 4)
    let point := (unit - 0xd800) * 1024 + (trailing - 0xdc00) + 0x10000
    .ok (Text.encode (Char.ofNat point).toString, 10)
  else .ok (Text.encode (Char.ofNat unit).toString, 4)

/-- The bytes that an escape stands for, and the number of bytes that it takes
after the backslash. -/
def readEscape : Bytes → Except Fault (Bytes × Nat)
  | [] => .error (.before .unfinishedText [])
  | byte :: rest =>
    match Char.ofUInt8 byte with
    | '\"' | '\\' | '/' => .ok ([byte], 1)
    | 'b' => .ok ([8], 1)
    | 'f' => .ok ([12], 1)
    | 'n' => .ok ([10], 1)
    | 'r' => .ok ([13], 1)
    | 't' => .ok ([9], 1)
    | 'u' => do
      let (bytes, length) ← readNumericEscape rest
      .ok (bytes, length + 1)
    | _ => .error (.before .invalidEscape rest)

/-! ## Texts -/

/-- The bytes of a text up to its closing quote, after those in `before`, which
is reversed. -/
def readContent (before : Bytes) : Bytes → Except Fault (Bytes × Bytes)
  | [] => .error (.before .unfinishedText [])
  | byte :: rest =>
    if byte = '\"'.toUInt8 then .ok (before.reverse, rest)
    else if byte = '\\'.toUInt8 then
      match readEscape rest with
      | .error fault => .error fault
      | .ok (bytes, length) => readContent (bytes.reverse ++ before) (rest.drop length)
    else if byte < 32 then .error (.before .controlCharacter rest)
    else readContent (byte :: before) rest
termination_by input => input.length
decreasing_by all_goals (simp; try omega)

/-- A text after its opening quote.  The place reported for bytes that are not
well-formed UTF-8 lies as far before the end of the text as the first of them
lies before the end of its content. -/
def readQuoted (input : Bytes) : Except Fault (String × Bytes) := do
  let (content, rest) ← readContent [] input
  match Text.decode? content with
  | some text => .ok (text, rest)
  | none =>
    .error ⟨.invalidCodePoint, rest.length + (content.length - Text.wellFormedLength content)⟩

/-- The number of bytes that an escape takes after the backslash.  A number
after `u` is not checked to be a character. -/
def skipEscape : Bytes → Except Fault Nat
  | [] => .error (.before .unfinishedText [])
  | byte :: rest =>
    match Char.ofUInt8 byte with
    | '\"' | '\\' | '/' | 'b' | 'f' | 'n' | 'r' | 't' => .ok 1
    | 'u' => do
      let _ ← readQuad rest
      .ok 5
    | _ => .error (.before .invalidEscape rest)

/-- What follows a text, after its opening quote. -/
def skipQuoted : Bytes → Except Fault Bytes
  | [] => .error (.before .unfinishedText [])
  | byte :: rest =>
    if byte = '\"'.toUInt8 then .ok rest
    else if byte = '\\'.toUInt8 then
      match skipEscape rest with
      | .error fault => .error fault
      | .ok length => skipQuoted (rest.drop length)
    else if byte < 32 then .error (.before .controlCharacter (byte :: rest))
    else skipQuoted rest
termination_by input => input.length
decreasing_by all_goals (simp; try omega)

/-! ## Numbers -/

/-- The decimal digits. -/
def isDigit (byte : UInt8) : Bool :=
  48 ≤ byte && byte ≤ 57

/-- Appends digits to a significand as long as it stays below `2^64`.  The
second result is the number of digits that were appended. -/
def appendDigits (significand : Nat) : Bytes → Nat × Nat
  | [] => (significand, 0)
  | byte :: rest =>
    let longer := significand * 10 + (byte.toNat - 48)
    if longer < Nat.pow 2 64 then
      let (result, count) := appendDigits longer rest
      (result, count + 1)
    else (significand, 0)

/-- Applies the sign to a magnitude. -/
def signed (positive : Bool) (magnitude : Float) : Float :=
  if positive then magnitude else -magnitude

/-- The fraction `significand · 10^exponent` with its sign. -/
def finishFraction (positive : Bool) (significand : Nat) (exponent : Int) (rest : Bytes) :
    Except Fault (Number × Bytes) :=
  match Decimal.magnitude? significand.toUInt64 exponent with
  | some magnitude => .ok (.fraction (signed positive magnitude), rest)
  | none => .error (.before .numberOutOfRange rest)

/-- The digits of an exponent as far as its value stays below `2^31`, and what
follows them. -/
def readExponentDigits (exponent : Nat) : Bytes → Nat × Bytes
  | [] => (exponent, [])
  | byte :: rest =>
    if isDigit byte ∧ exponent * 10 + (byte.toNat - 48) < Nat.pow 2 31 then
      readExponentDigits (exponent * 10 + (byte.toNat - 48)) rest
    else (exponent, byte :: rest)

/-- An exponent after its letter.  One that is too long makes the number zero,
unless it is positive and the significand is not zero. -/
def readExponent (positive : Bool) (significand : Nat) (start : Int) (input : Bytes) :
    Except Fault (Number × Bytes) :=
  let (negative, digits) :=
    match input with
    | byte :: rest =>
      if byte = '+'.toUInt8 then (false, rest)
      else if byte = '-'.toUInt8 then (true, rest)
      else (false, byte :: rest)
    | [] => (false, [])
  match digits with
  | [] => .error (.before .unfinishedValue [])
  | first :: rest =>
    if ¬ isDigit first then .error (.before .invalidNumber rest)
    else
      let (exponent, after) := readExponentDigits (first.toNat - 48) rest
      match after with
      | byte :: others =>
        if isDigit byte then
          if significand ≠ 0 ∧ ¬ negative then .error (.before .numberOutOfRange others)
          else .ok (.fraction (signed positive 0.0), others.dropWhile isDigit)
        else
          finishFraction positive significand
            (if negative then start - exponent else start + exponent) after
      | [] =>
        finishFraction positive significand
          (if negative then start - exponent else start + exponent) after

/-- The exponent of a number, if it has one, and the number itself. -/
def readScaled (positive : Bool) (significand : Nat) (exponent : Int) (input : Bytes) :
    Except Fault (Number × Bytes) :=
  match input with
  | byte :: rest =>
    if byte = 'e'.toUInt8 ∨ byte = 'E'.toUInt8 then
      readExponent positive significand exponent rest
    else finishFraction positive significand exponent input
  | [] => finishFraction positive significand exponent input

/-- The digits after a decimal point and what follows them. -/
def readFraction (positive : Bool) (significand : Nat) (exponent : Int) (input : Bytes) :
    Except Fault (Number × Bytes) :=
  let digits := input.takeWhile isDigit
  let rest := input.dropWhile isDigit
  if digits.isEmpty then
    match rest with
    | [] => .error (.at .unfinishedValue [])
    | _ :: _ => .error (.at .invalidNumber rest)
  else
    let (longer, count) := appendDigits significand digits
    readScaled positive longer (exponent - count) rest

/-- An integer is a value of its own when it fits in 64 bits, unsigned or with a
sign.  Negative zero and every other integer become fractions. -/
def integerOf (positive : Bool) (significand : Nat) : Number :=
  if positive then .integer significand
  else if significand = 0 ∨ significand > Nat.pow 2 63 then
    .fraction (signed false significand.toUInt64.toFloat)
  else .integer (-significand)

/-- A number after its whole part, of which `dropped` digits did not fit. -/
def readAfterWhole (positive : Bool) (significand dropped : Nat) (input : Bytes) :
    Except Fault (Number × Bytes) :=
  match input with
  | byte :: rest =>
    if byte = '.'.toUInt8 then readFraction positive significand dropped rest
    else if byte = 'e'.toUInt8 ∨ byte = 'E'.toUInt8 then
      readExponent positive significand dropped rest
    else if dropped = 0 then .ok (integerOf positive significand, input)
    else finishFraction positive significand dropped input
  | [] =>
    if dropped = 0 then .ok (integerOf positive significand, input)
    else finishFraction positive significand dropped input

/-- A number after its sign. -/
def readNumber (positive : Bool) : Bytes → Except Fault (Number × Bytes)
  | [] => .error (.before .unfinishedValue [])
  | byte :: rest =>
    if byte = '0'.toUInt8 then
      match rest with
      | next :: _ =>
        if isDigit next then .error (.at .invalidNumber rest)
        else readAfterWhole positive 0 0 rest
      | [] => readAfterWhole positive 0 0 rest
    else if isDigit byte then
      let digits := byte :: rest.takeWhile isDigit
      let (significand, count) := appendDigits 0 digits
      readAfterWhole positive significand (digits.length - count) (rest.dropWhile isDigit)
    else .error (.before .invalidNumber rest)

/-- What follows an exponent, after its letter. -/
def skipExponent (input : Bytes) : Except Fault Bytes :=
  let digits :=
    match input with
    | byte :: rest => if byte = '+'.toUInt8 ∨ byte = '-'.toUInt8 then rest else input
    | [] => []
  match digits with
  | [] => .error (.before .invalidNumber [])
  | byte :: rest =>
    if isDigit byte then .ok (rest.dropWhile isDigit) else .error (.before .invalidNumber rest)

/-- What follows the exponent, if there is one. -/
def skipScale : Bytes → Except Fault Bytes
  | [] => .ok []
  | byte :: rest =>
    if byte = 'e'.toUInt8 ∨ byte = 'E'.toUInt8 then skipExponent rest else .ok (byte :: rest)

/-- What follows a number, after its sign. -/
def skipNumber : Bytes → Except Fault Bytes
  | [] => .error (.before .invalidNumber [])
  | byte :: rest =>
    if ¬ isDigit byte then .error (.before .invalidNumber rest)
    else
      let after := if byte = '0'.toUInt8 then rest else rest.dropWhile isDigit
      match after with
      | next :: others =>
        if isDigit next then .error (.at .invalidNumber after)
        else if next = '.'.toUInt8 then
          let digits := others.takeWhile isDigit
          let beyond := others.dropWhile isDigit
          if digits.isEmpty then .error (.at .invalidNumber beyond) else skipScale beyond
        else skipScale after
      | [] => .ok []

end FreightPromotion.Json
