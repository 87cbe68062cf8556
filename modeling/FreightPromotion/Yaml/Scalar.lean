import FreightPromotion.Text.Hexadecimal
import FreightPromotion.Text.Utf8

/-!
# Scalars in block style

A text is written in one of four styles.  Left plain it must not look like a
value of another type or like an indicator of the format.  Between single quotes
every printable text without awkward breaks can stand.  A text of several lines
is written as a literal block, and whatever is left goes between double quotes
with escapes.

A break other than the line feed is written as it is and ends the line of the
output, so the text after it is indented again.
-/

namespace FreightPromotion.Yaml

/-! ## Classes of characters -/

/-- The characters that end a line: line feed, carriage return, next line, line
separator and paragraph separator. -/
def isBreak (character : Char) : Bool :=
  character = '\n' || character = '\r' || character = '\u0085' ||
    character = '\u2028' || character = '\u2029'

/-- Space and tab, the breaks, and the null character. -/
def isGap (character : Char) : Bool :=
  character = ' ' || character = '\t' || character = '\x00' || isBreak character

/-- The characters that may appear in the output as they are. -/
def isPrintable (character : Char) : Bool :=
  let point := character.toNat
  point = 0x0a || (0x20 ≤ point && point ≤ 0x7e) || (0xa0 ≤ point && point ≤ 0xd7ff) ||
    (0xe000 ≤ point && point ≤ 0xfffd && point ≠ 0xfeff) || 0x10000 ≤ point

/-- Whether some character and its successor are related. -/
def anyAdjacent (related : Char → Char → Bool) : List Char → Bool
  | first :: second :: rest => related first second || anyAdjacent related (second :: rest)
  | _ => false

/-! ## Texts that look like other values -/

/-- The value of digits in a base up to sixteen, if there is at least one and all
are digits of the base. -/
def digitsValue? (base : Nat) (digits : List Char) : Option Nat :=
  let digit? (character : Char) : Option Nat :=
    let value :=
      if '0' ≤ character ∧ character ≤ '9' then character.toNat - 48
      else if 'a' ≤ character ∧ character ≤ 'f' then character.toNat - 87
      else if 'A' ≤ character ∧ character ≤ 'F' then character.toNat - 55
      else base
    if value < base then some value else none
  if digits.isEmpty then none
  else digits.foldlM (fun value character => (digit? character).map (value * base + ·)) 0

/-- Digits in base ten, or in the base that a mark names. -/
def markedValue? : List Char → Option Nat
  | '0' :: 'x' :: digits => digitsValue? 16 digits
  | '0' :: 'o' :: digits => digitsValue? 8 digits
  | '0' :: 'b' :: digits => digitsValue? 2 digits
  | digits => digitsValue? 10 digits

/-- The text without one sign. -/
def unsigned : List Char → List Char
  | '+' :: rest => rest
  | '-' :: rest => rest
  | text => text

/-- Several digits of which the first is zero, after an optional sign.  They
identify something rather than count it. -/
def isZeroLed (text : List Char) : Bool :=
  match unsigned text with
  | '0' :: digit :: digits => (digit :: digits).all Char.isDigit
  | _ => false

/-- An integer between `-2^127` and `2^128 - 1`. -/
def looksIntegral (text : List Char) : Bool :=
  if isZeroLed text then false
  else
    match text with
    | '-' :: digits => (markedValue? digits).any (· ≤ Nat.pow 2 127)
    | _ => (markedValue? (unsigned text)).any (· < Nat.pow 2 128)

/-- The middle between the largest binary fraction and the next power of two.
Numbers from here on round to infinity. -/
def finiteBound : Nat :=
  (Nat.pow 2 54 - 1) * Nat.pow (Nat.pow 2 194) 5

/-- The number nearest to `significand · 10^exponent` is finite.  The comparison
is made only when the place of the leading digit leaves it open. -/
def isFinite (significand : List Char) (exponent : Int) : Bool :=
  let digits := significand.dropWhile (· = '0')
  let leading := exponent + digits.length
  if digits.isEmpty ∨ leading ≤ 308 then true
  else if leading > 309 then false
  else
    let value := digits.foldl (fun value character => value * 10 + (character.toNat - 48)) 0
    if exponent ≥ 0 then decide (value * Nat.pow 10 exponent.toNat < finiteBound)
    else decide (value < finiteBound * Nat.pow 10 (-exponent).toNat)

/-- An optional exponent at the end of a number; the exponent is zero if there is
none. -/
def exponentValue? : List Char → Option Int
  | [] => some 0
  | letter :: rest =>
    if letter ≠ 'e' ∧ letter ≠ 'E' then none
    else
      match rest with
      | '-' :: digits => (digitsValue? 10 digits).map fun value => -(value : Int)
      | '+' :: digits => (digitsValue? 10 digits).map Int.ofNat
      | digits => (digitsValue? 10 digits).map Int.ofNat

/-- A finite number with digits before or after an optional point, and an
optional exponent. -/
def looksDecimal (text : List Char) : Bool :=
  let whole := text.takeWhile Char.isDigit
  let afterWhole := text.dropWhile Char.isDigit
  let (fraction, rest) :=
    match afterWhole with
    | '.' :: digits => (digits.takeWhile Char.isDigit, digits.dropWhile Char.isDigit)
    | rest => ([], rest)
  if (whole ++ fraction).isEmpty then false
  else
    (exponentValue? rest).any fun exponent =>
      isFinite (whole ++ fraction) (exponent - fraction.length)

/-- A fraction, an infinity or the undefined number. -/
def looksFractional (text : List Char) : Bool :=
  let magnitude := unsigned text
  if String.ofList magnitude ∈ [".inf", ".Inf", ".INF"] then true
  else if String.ofList text ∈ [".nan", ".NaN", ".NAN"] then true
  else !isZeroLed text && looksDecimal magnitude

/-- A plain scalar with this text would not be read as a text. -/
def looksForeign (text : List Char) : Bool :=
  text.isEmpty ||
    String.ofList text ∈ ["~", "null", "Null", "NULL", "true", "True", "TRUE", "false", "False",
      "FALSE"] ||
    isZeroLed text || looksIntegral text || looksFractional text

/-! ## Styles -/

/-- The four ways to write a text. -/
inductive Style where
  | plain
  | single
  | double
  | literal
deriving DecidableEq

/-- Characters that cannot start a plain scalar. -/
def isLeadingIndicator (character : Char) : Bool :=
  character ∈ ['#', ',', '[', ']', '{', '}', '&', '*', '!', '|', '>', '\'', '\"', '%', '@', '\x60']

/-- A plain scalar with this text would be taken for structure. -/
def hasIndicator (text : List Char) : Bool :=
  ['-', '-', '-'].isPrefixOf text || ['.', '.', '.'].isPrefixOf text ||
    (match text with
      | [] => false
      | first :: rest =>
        isLeadingIndicator first ||
          ((first = '?' || first = '-') &&
            match rest with
            | [] => true
            | second :: _ => isGap second)) ||
    anyAdjacent (fun first second => first = ':' && isGap second) text ||
    text.getLast? = some ':' ||
    anyAdjacent (fun first second => isGap first && second = '#') text

/-- A character that no style but the double-quoted one can hold, or a space
before a break, which only that style keeps. -/
def needsEscapes (text : List Char) : Bool :=
  text.any (!isPrintable ·) ||
    anyAdjacent (fun first second => first = ' ' && isBreak second) text

/-- Whether a plain scalar can hold the text. -/
def allowsPlain (text : List Char) : Bool :=
  !needsEscapes text && !hasIndicator text && !text.any isBreak &&
    text.head? ≠ some ' ' && text.getLast? ≠ some ' '

/-- Whether single quotes can hold the text. -/
def allowsSingle (text : List Char) : Bool :=
  !needsEscapes text && !anyAdjacent (fun first second => isBreak first && second = ' ') text

/-- Whether a literal block can hold the text. -/
def allowsLiteral (text : List Char) : Bool :=
  !needsEscapes text && text.getLast? ≠ some ' '

/-- The style in which a text is written. -/
def Style.of (text : List Char) : Style :=
  if '\n' ∈ text then if allowsLiteral text then .literal else .double
  else if !looksForeign text && allowsPlain text then .plain
  else if allowsSingle text then .single
  else .double

/-! ## Writing -/

/-- The spaces at the start of a line. -/
def indentation (indent : Nat) : List Char :=
  List.replicate indent ' '

/-- Writes characters by `form`, with the indentation before the first that
follows a break.  `fresh` says that the line has just begun; so does the second
result for the end. -/
def writeLines (indent : Nat) (form : Char → List Char) : Bool → List Char → List Char × Bool
  | fresh, [] => ([], fresh)
  | fresh, character :: rest =>
    if isBreak character then
      let (written, ended) := writeLines indent form true rest
      (character :: written, ended)
    else
      let (written, ended) := writeLines indent form false rest
      ((if fresh then indentation indent else []) ++ form character ++ written, ended)

/-- A quote inside single quotes is written twice. -/
def singleForm (character : Char) : List Char :=
  if character = '\'' then ['\'', '\''] else [character]

/-- The text between single quotes. -/
def writeSingle (indent : Nat) (text : List Char) : List Char :=
  let (written, ended) := writeLines indent singleForm false text
  '\'' :: written ++ (if ended then indentation indent else []) ++ ['\'']

/-- The sign after the mark of a literal block.  It says that the text does not
end its last line, or that it ends in more than one break. -/
def chomping (text : List Char) : List Char :=
  match text.reverse with
  | last :: previous :: _ =>
    if !isBreak last then ['-'] else if isBreak previous then ['+'] else []
  | [last] => if isBreak last then ['+'] else ['-']
  | [] => ['-']

/-- A literal block: its header, and every line with the indentation. -/
def writeLiteral (indent : Nat) (text : List Char) : List Char :=
  let hint :=
    match text with
    | first :: _ => if first = ' ' || isBreak first then ['2'] else []
    | [] => []
  '|' :: hint ++ chomping text ++ ['\n'] ++
    (writeLines indent (fun character => [character]) true text).1

/-- The lowest `width` hexadecimal digits of a number. -/
def hexDigits : Nat → Nat → List Char
  | 0, _ => []
  | width + 1, value => hexDigits width (value / 16) ++ [Text.upperHexDigit (value % 16)]

/-- How a character appears between double quotes. -/
def doubleForm (character : Char) : List Char :=
  match character with
  | '\x00' => ['\\', '0']
  | '\x07' => ['\\', 'a']
  | '\x08' => ['\\', 'b']
  | '\t' => ['\\', 't']
  | '\n' => ['\\', 'n']
  | '\x0b' => ['\\', 'v']
  | '\x0c' => ['\\', 'f']
  | '\r' => ['\\', 'r']
  | '\x1b' => ['\\', 'e']
  | '\"' => ['\\', '\"']
  | '\\' => ['\\', '\\']
  | '\u0085' => ['\\', 'N']
  | '\u2028' => ['\\', 'L']
  | '\u2029' => ['\\', 'P']
  | _ =>
    let point := character.toNat
    if isPrintable character then [character]
    else if point ≤ 0xff then '\\' :: 'x' :: hexDigits 2 point
    else if point ≤ 0xffff then '\\' :: 'u' :: hexDigits 4 point
    else '\\' :: 'U' :: hexDigits 8 point

/-- The text between double quotes. -/
def writeDouble (text : List Char) : List Char :=
  '\"' :: text.flatMap doubleForm ++ ['\"']

/-- A text as a scalar whose continuation lines have the given indentation. -/
def writeText (indent : Nat) (text : List Char) : List Char :=
  match Style.of text with
  | .plain => text
  | .single => writeSingle indent text
  | .double => writeDouble text
  | .literal => writeLiteral indent text

end FreightPromotion.Yaml
