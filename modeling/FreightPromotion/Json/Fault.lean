import FreightPromotion.Json.Value
import FreightPromotion.Text.Quoted
import FreightPromotion.Text.Utf8

/-!
# What can be wrong with a document

A document is read from its first byte to its last, and the first fault ends the
reading.  A fault is recorded with the number of bytes that were still ahead, so
that reading needs no counters; the line and the column are computed from the
whole document afterwards.
-/

namespace FreightPromotion.Json

open FreightPromotion.Text (Bytes)

/-- What was found in place of a value of the expected shape. -/
inductive Found where
  | null
  | bool (value : Bool)
  | number (value : Number)
  | text (value : String)
  | sequence
  | map
deriving DecidableEq

/-- The rule that a document breaks. -/
inductive Cause where
  | unfinishedValue
  | unfinishedList
  | unfinishedObject
  | unfinishedText
  | expectedColon
  | expectedCommaInList
  | expectedCommaInObject
  | expectedLiteral
  | expectedValue
  | invalidEscape
  | unpairedEscape
  | loneSurrogate
  | invalidCodePoint
  | controlCharacter
  | invalidNumber
  | numberOutOfRange
  | keyNotText
  | trailingComma
  | trailingCharacters
  | nestedTooDeeply
  | wrongShape (found : Found) (expected : String)
  | repeatedField (name : String)
deriving DecidableEq

/-- A broken rule, and the number of bytes not yet read at the place that is
reported for it. -/
structure Fault where
  cause : Cause
  remaining : Nat
deriving DecidableEq

/-- The fault lies before `rest`, in what has been read. -/
def Fault.before (cause : Cause) (rest : Bytes) : Fault :=
  ⟨cause, rest.length⟩

/-- The fault is the next byte of `rest`, or the end of the document. -/
def Fault.at (cause : Cause) (rest : Bytes) : Fault :=
  ⟨cause, rest.length - 1⟩

/-! ## Wording -/

/-- Names what was found. -/
def Found.description : Found → String
  | .null => "null"
  | .bool value => "boolean `" ++ (if value then "true" else "false") ++ "`"
  | .number (.integer value) => "integer `" ++ toString value ++ "`"
  | .number (.fraction value) => "floating point `" ++ layout.text value ++ "`"
  | .text value => "string " ++ Text.quote value
  | .sequence => "sequence"
  | .map => "map"

/-- Says which rule is broken. -/
def Cause.description : Cause → String
  | .unfinishedValue => "EOF while parsing a value"
  | .unfinishedList => "EOF while parsing a list"
  | .unfinishedObject => "EOF while parsing an object"
  | .unfinishedText => "EOF while parsing a string"
  | .expectedColon => "expected `:`"
  | .expectedCommaInList => "expected `,` or `]`"
  | .expectedCommaInObject => "expected `,` or `\x7d`"
  | .expectedLiteral => "expected ident"
  | .expectedValue => "expected value"
  | .invalidEscape => "invalid escape"
  | .unpairedEscape => "unexpected end of hex escape"
  | .loneSurrogate => "lone leading surrogate in hex escape"
  | .invalidCodePoint => "invalid unicode code point"
  | .controlCharacter =>
    "control character (\\u0000-\\u001F) found while parsing a string"
  | .invalidNumber => "invalid number"
  | .numberOutOfRange => "number out of range"
  | .keyNotText => "key must be a string"
  | .trailingComma => "trailing comma"
  | .trailingCharacters => "trailing characters"
  | .nestedTooDeeply => "recursion limit exceeded"
  | .wrongShape found expected => "invalid type: " ++ found.description ++ ", expected " ++ expected
  | .repeatedField name => "duplicate field `" ++ name ++ "`"

/-! ## Places -/

/-- A broken rule and its place in the document: lines count from one, and a
column is the number of bytes since the line began. -/
structure Malformed where
  cause : Cause
  line : Nat
  column : Nat
deriving DecidableEq

/-- The place after the given bytes. -/
def placeAfter (bytes : Bytes) : Nat × Nat :=
  (bytes.count 10 + 1, (bytes.reverse.takeWhile (· ≠ 10)).length)

/-- The fault of a reading of the whole document `input`. -/
def Fault.locate (input : Bytes) (fault : Fault) : Malformed :=
  let (line, column) := placeAfter (input.take (input.length - fault.remaining))
  ⟨fault.cause, line, column⟩

/-- The message for a document that cannot be read. -/
def Malformed.message (malformed : Malformed) : String :=
  malformed.cause.description ++ " at line " ++ toString malformed.line ++
    " column " ++ toString malformed.column

end FreightPromotion.Json
