import FreightPromotion.Text.Percent

/-!
# Users

An address may name a user before its host, with a password or without.  They are
no part of where a message goes: the message shows both in a header, as one text
in base 64.
-/

namespace FreightPromotion.Http

open FreightPromotion.Text (Bytes percentDecode percentEncode)

/-! ## Base 64 -/

/-- The digits of base 64, by their value. -/
def base64Digits : List Char :=
  "ABCDEFGHIJKLMNOPQRSTUVWXYZabcdefghijklmnopqrstuvwxyz0123456789+/".toList

/-- The digit for a value below 64. -/
def base64Digit (value : Nat) : Char := base64Digits.getD value '='

/-- Four digits for three bytes each.  Equals signs stand for the digits that are
left without a byte at the end. -/
def base64 : Bytes → List Char
  | [] => []
  | [first] =>
    [base64Digit (first.toNat / 4), base64Digit (first.toNat % 4 * 16), '=', '=']
  | [first, second] =>
    [base64Digit (first.toNat / 4), base64Digit (first.toNat % 4 * 16 + second.toNat / 16),
      base64Digit (second.toNat % 16 * 4), '=']
  | first :: second :: third :: rest =>
    base64Digit (first.toNat / 4) :: base64Digit (first.toNat % 4 * 16 + second.toNat / 16) ::
      base64Digit (second.toNat % 16 * 4 + third.toNat / 64) ::
      base64Digit (third.toNat % 64) :: base64 rest

/-! ## Users -/

/-- A user whom an address names. -/
structure User where
  name : String
  password : Option String
deriving DecidableEq, Repr

namespace User

/-- The name and the password as they stand before the host.  The password comes
after the first colon, and an empty one is none. -/
def parts (text : List Char) : List Char × Option (List Char) :=
  (text.takeWhile (· ≠ ':'),
    match text.dropWhile (· ≠ ':') with
    | _ :: first :: rest => some (first :: rest)
    | _ => none)

/-- The text that a percent-encoded one stands for, if it stands for one. -/
def decode? (text : List Char) : Option String :=
  Text.decode? (percentDecode text)

/-- Reads the user in what stands before the host.  Nobody is named by a name that
is not valid text, nor by an empty one without a password; a password that is not
valid text is none. -/
def read (text : List Char) : Option User :=
  match decode? (parts text).1 with
  | none => none
  | some name =>
    let password := (parts text).2.bind decode?
    if name.isEmpty ∧ password.isNone then none else some ⟨name, password⟩

/-- The characters that are encoded where a user is named. -/
def reserved : List Char :=
  [' ', '\"', '<', '>', '\x60', '#', '?', '\x7b', '\x7d', '/', ':', ';', '=', '@', '[', '\\', ']',
    '^', '|']

/-- What is left in an address of what stands before its host, with the sign after
it.  A user who can be read is taken out. -/
def remainder (text : List Char) : List Char :=
  match read text, parts text with
  | some _, _ | none, ([], none) => []
  | none, (name, password?) =>
    let password := password?.elim [] (':' :: percentEncode reserved ·)
    percentEncode reserved name ++ password ++ ['@']

/-- The header that shows a user. -/
def authorization (user : User) : String :=
  "Basic " ++ String.ofList (base64 (Text.encode (user.name ++ ":" ++ user.password.getD "")))

end User

end FreightPromotion.Http
