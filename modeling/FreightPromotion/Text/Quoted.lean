import FreightPromotion.Text.Concealed
import FreightPromotion.Text.Hexadecimal

/-!
# Quoted text

Names and formats are shown between double quotes, with an escape for every
character that would end the quotes, start an escape, end the line or stay
unseen.  Every escape starts with a backslash and none of the characters left as
they are does, so a quoted text ends where its closing quote stands and the text
can be read back.
-/

namespace FreightPromotion.Text

/-- How one character of a text appears between quotes. -/
def escape (character : Char) : String :=
  if character = '\"' then "\\\""
  else if character = '\\' then "\\\\"
  else if character = '\n' then "\\n"
  else if character = '\r' then "\\r"
  else if character = '\t' then "\\t"
  else if character = '\x00' then "\\0"
  else if isConcealed character then "\\u\x7b" ++ hexadecimal character.toNat ++ "\x7d"
  else character.toString

/-- The text between double quotes. -/
def quote (text : String) : String :=
  "\"" ++ String.join (text.toList.map escape) ++ "\""

end FreightPromotion.Text
