import FreightPromotion.Json.Value
import FreightPromotion.Text.Hexadecimal

/-!
# Printing a document

A document is printed in one of two arrangements: compact, without a blank, and
indented, with a line for each member and item.  Both write the same words.  A
text is escaped only where the format demands it, so every other character
appears as itself.
-/

namespace FreightPromotion.Json

/-- How a character appears in a text. -/
def escape (character : Char) : List Char :=
  if character = '\"' then ['\\', '\"']
  else if character = '\\' then ['\\', '\\']
  else if character = '\x08' then ['\\', 'b']
  else if character = '\x0c' then ['\\', 'f']
  else if character = '\n' then ['\\', 'n']
  else if character = '\r' then ['\\', 'r']
  else if character = '\t' then ['\\', 't']
  else if character.toNat < 32 then
    ['\\', 'u', '0', '0', Text.lowerHexDigit (character.toNat / 16),
      Text.lowerHexDigit (character.toNat % 16)]
  else [character]

/-- A text between its quotes. -/
def textWord (text : String) : String :=
  "\"" ++ String.ofList (text.toList.flatMap escape) ++ "\""

/-- A value without items or members. -/
def word : Value → String
  | .null => "null"
  | .bool value => if value then "true" else "false"
  | .number value => value.text layout
  | .text value => textWord value
  | .array _ => "[]"
  | .object _ => "\x7b\x7d"

/-! ## Compact -/

mutual

/-- The document without a blank. -/
def Value.compact : Value → String
  | .array items => "[" ++ compactItems items ++ "]"
  | .object members => "\x7b" ++ compactMembers members ++ "\x7d"
  | value => word value

/-- The items of a list. -/
def compactItems : List Value → String
  | [] => ""
  | item :: items => item.compact ++ compactMoreItems items

/-- The items of a list after the first. -/
def compactMoreItems : List Value → String
  | [] => ""
  | item :: items => "," ++ item.compact ++ compactMoreItems items

/-- The members of an object. -/
def compactMembers : List (String × Value) → String
  | [] => ""
  | (key, value) :: members =>
    textWord key ++ ":" ++ value.compact ++ compactMoreMembers members

/-- The members of an object after the first. -/
def compactMoreMembers : List (String × Value) → String
  | [] => ""
  | (key, value) :: members =>
    "," ++ textWord key ++ ":" ++ value.compact ++ compactMoreMembers members

end

/-! ## Indented -/

/-- Starts a line at the given depth, two spaces for each level. -/
def freshLine (depth : Nat) : String :=
  "\n" ++ String.ofList (List.replicate (2 * depth) ' ')

mutual

/-- The document with a line for each item and member, those of a list or object
at the given depth one level deeper than its brackets. -/
def Value.indented (depth : Nat) : Value → String
  | .array (item :: items) =>
    "[" ++ freshLine (depth + 1) ++ item.indented (depth + 1) ++
      indentedMoreItems (depth + 1) items ++ freshLine depth ++ "]"
  | .object ((key, value) :: members) =>
    "\x7b" ++ freshLine (depth + 1) ++ textWord key ++ ": " ++ value.indented (depth + 1) ++
      indentedMoreMembers (depth + 1) members ++ freshLine depth ++ "\x7d"
  | value => word value

/-- The items of a list after the first. -/
def indentedMoreItems (depth : Nat) : List Value → String
  | [] => ""
  | item :: items =>
    "," ++ freshLine depth ++ item.indented depth ++ indentedMoreItems depth items

/-- The members of an object after the first. -/
def indentedMoreMembers (depth : Nat) : List (String × Value) → String
  | [] => ""
  | (key, value) :: members =>
    "," ++ freshLine depth ++ textWord key ++ ": " ++ value.indented depth ++
      indentedMoreMembers depth members

end

/-- The document in the indented arrangement. -/
def Value.pretty (value : Value) : String :=
  value.indented 0

end FreightPromotion.Json
