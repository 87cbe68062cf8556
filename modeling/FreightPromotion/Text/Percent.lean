import FreightPromotion.Text.Hexadecimal
import FreightPromotion.Text.Utf8

/-!
# Percent signs in addresses

In an address, a percent sign before two digits in base sixteen stands for a byte.
The parts of an address differ in the characters that have to be written so.
-/

namespace FreightPromotion.Text

/-- A percent sign and two digits for a byte. -/
def percentByte (byte : UInt8) : List Char :=
  ['%', upperHexDigit (byte.toNat / 16), upperHexDigit (byte.toNat % 16)]

/-- Encodes the characters that are not printable ASCII or are listed. -/
def percentEncode (reserved : List Char) (text : List Char) : List Char :=
  text.flatMap fun character =>
    if character.toNat ≤ 0x1f ∨ 0x7f ≤ character.toNat ∨ character ∈ reserved then
      (encode character.toString).flatMap percentByte
    else [character]

/-- The bytes of a text in which percent signs before two digits stand for
bytes. -/
def percentDecode : List Char → Bytes
  | [] => []
  | '%' :: first :: second :: rest =>
    match hexValue? first, hexValue? second with
    | some high, some low => (high * 16 + low).toUInt8 :: percentDecode rest
    | _, _ => '%'.toUInt8 :: percentDecode (first :: second :: rest)
  | character :: rest => encode character.toString ++ percentDecode rest

end FreightPromotion.Text
