import FreightPromotion.Text.Utf8

/-!
# Text without instructions to a terminal

A terminal takes control characters, and the sequences that an escape character
starts, for instructions.  A message that quotes what the user wrote is shown
without them; of the controls only white space stays.

A sequence is a single character, perhaps after others between the space and the
slash; or it starts with a bracket and ends with a letter or a sign from the same
columns; or it is a command, which the bell ends; or it is a string for a device
or for nobody, which the byte 0x9C ends, even within a character.  Another escape
character ends each of them and starts a new one; the characters 0x18 and 0x1A
end it too.

White space within the first two kinds is shown and interrupts the sequence: what
follows is text.  The next control takes the sequence up again, unless a
character outside ASCII stands before it.
-/

namespace FreightPromotion.Text

/-- The part of a sequence that the next character belongs to. -/
inductive Sequencing where
  /-- The character is text. -/
  | text
  /-- The character follows an escape character. -/
  | escape
  /-- The character follows those that may precede a single one. -/
  | single
  /-- The character belongs to parameters. -/
  | parameters
  /-- The character belongs to a command. -/
  | command
  /-- The character is the first for a device. -/
  | device
  /-- The character belongs to the parameters for a device. -/
  | deviceParameters
  /-- The character follows those after the parameters for a device. -/
  | deviceSingle
  /-- The character belongs to a string. -/
  | string
deriving DecidableEq, Repr

/-- A character that a message may hold: no control, or white space. -/
def isShowable (character : Char) : Bool :=
  (32 ≤ character.toNat && character.toNat ≠ 127) ||
    character ∈ ['\t', '\n', '\x0c', '\r']

namespace Sequencing

/-- Whether a character is shown. -/
def shows (sequencing : Sequencing) (character : Char) : Bool :=
  match sequencing with
  | .text => isShowable character
  | .escape | .single | .parameters => isShowable character && character < ' '
  | _ => false

/-- What a character of a sequence is followed by. -/
def after (sequencing : Sequencing) (character : Char) : Sequencing :=
  let isBetween (low high : Char) : Bool := low ≤ character && character ≤ high
  if character = '\x1b' then .escape
  else if character = '\x18' ∨ character = '\x1a' then .text
  else
    match sequencing with
    | .text => .text
    | .escape =>
      if isBetween ' ' '/' then .single
      else if character = '[' then .parameters
      else if character = ']' then .command
      else if character = 'P' then .device
      else if character ∈ ['X', '^', '_'] then .string
      else if isBetween '0' '~' then .text
      else .escape
    | .single => if isBetween '0' '~' then .text else .single
    | .parameters => if isBetween '@' '~' then .text else .parameters
    | .command => if character = '\x07' then .text else .command
    | .device =>
      if isBetween ' ' '/' then .deviceSingle
      else if isBetween '0' '?' then .deviceParameters
      else if isBetween '@' '~' then .string
      else .device
    | .deviceParameters =>
      if isBetween ' ' '/' then .deviceSingle
      else if isBetween '<' '~' then .string
      else .deviceParameters
    | .deviceSingle => if isBetween '0' '~' then .string else .deviceSingle
    | .string => if (encode character.toString).contains 0x9c then .text else .string

end Sequencing

/-- The characters that are shown.  `isText` says that the characters are text
although a sequence is interrupted. -/
def dropSequences (sequencing : Sequencing) (isText : Bool) : List Char → List Char
  | [] => []
  | character :: rest =>
    let isShown := if isText then isShowable character else sequencing.shows character
    if !isShown then dropSequences (sequencing.after character) false rest
    else
      let next :=
        if 128 ≤ character.toNat then .text
        else if isText then sequencing
        else sequencing.after character
      character :: dropSequences next true rest

/-- A text without controls and sequences. -/
def unstyled (text : String) : String :=
  String.ofList (dropSequences .text false text.toList)

end FreightPromotion.Text
