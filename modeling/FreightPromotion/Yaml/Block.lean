import FreightPromotion.Json.Value
import FreightPromotion.Yaml.Scalar

/-!
# Documents in block style

A collection takes a line for each item or member.  A mapping below another is
indented by two spaces, while the items of a sequence stand under the key that
holds it.  After the dash of an item, and after the colon that follows an
explicit key, a collection begins on the same line.

A key is explicit when it has several lines or is longer than 128 bytes: it then
follows a question mark, and its value a colon on a line of its own.

Every node ends its line.  A scalar whose last character is a break has done so
already.
-/

namespace FreightPromotion.Yaml

open FreightPromotion.Json (Value)

/-- Fractions are written as in the other format, but a positive exponent has no
sign. -/
def layout : Decimal.Layout := ⟨-5, 15, false⟩

/-- Whether a key is written before its value on one line. -/
def isSimpleKey (key : String) : Bool :=
  !key.toList.any isBreak && key.utf8ByteSize ≤ 128

/-- The text with its line ended. -/
def endLine (text : List Char) : List Char :=
  if text.getLast?.any isBreak then text else text ++ ['\n']

/-- A node without items or members.  The indentation is that of the collection
around it. -/
def writeScalar (indent : Nat) : Value → List Char
  | .null => "null".toList
  | .bool value => (if value then "true" else "false").toList
  | .number value => (value.text layout).toList
  | .text value => writeText (indent + 2) value.toList
  | .array _ => ['[', ']']
  | .object _ => ['{', '}']

/-- What a value comes after: the colon of a simple key, or a mark on a line of
its own, which is a dash or the colon of an explicit key. -/
inductive Place where
  | key
  | mark
deriving DecidableEq

/-- Where the value of a key comes. -/
def Place.of (key : String) : Place :=
  if isSimpleKey key then .key else .mark

/-- A key up to its colon, from where its line has been indented. -/
def writeKey (indent : Nat) (key : String) : List Char :=
  if isSimpleKey key then writeText (indent + 2) key.toList ++ [':']
  else '?' :: ' ' :: endLine (writeText (indent + 2) key.toList) ++ indentation indent ++ [':']

mutual

/-- A value of a collection with the given indentation, after a key or mark. -/
def writeNode (indent : Nat) (place : Place) : Value → List Char
  | .array (item :: items) =>
    if place = .key then
      '\n' :: indentation indent ++ '-' :: writeNode indent .mark item ++
        writeMoreItems indent items
    else
      ' ' :: '-' :: writeNode (indent + 2) .mark item ++ writeMoreItems (indent + 2) items
  | .object ((key, value) :: members) =>
    (if place = .key then '\n' :: indentation (indent + 2) else [' ']) ++
      writeKey (indent + 2) key ++ writeNode (indent + 2) (.of key) value ++
      writeMoreMembers (indent + 2) members
  | value => ' ' :: endLine (writeScalar indent value)

/-- The items of a sequence after the first. -/
def writeMoreItems (indent : Nat) : List Value → List Char
  | [] => []
  | item :: items =>
    indentation indent ++ '-' :: writeNode indent .mark item ++ writeMoreItems indent items

/-- The members of a mapping after the first. -/
def writeMoreMembers (indent : Nat) : List (String × Value) → List Char
  | [] => []
  | (key, value) :: members =>
    indentation indent ++ writeKey indent key ++ writeNode indent (.of key) value ++
      writeMoreMembers indent members

end

/-- A whole document. -/
def document : Value → String
  | .array items =>
    String.ofList (if items.isEmpty then ['[', ']', '\n'] else writeMoreItems 0 items)
  | .object members =>
    String.ofList (if members.isEmpty then ['{', '}', '\n'] else writeMoreMembers 0 members)
  | value => String.ofList (endLine (writeScalar 0 value))

end FreightPromotion.Yaml
