import FreightPromotion.Text.Percent

/-!
# Hosts

An address names its host by a number or by a name.  A number of the fourth
version has up to four parts between dots, of which the last stands for all bytes
that are left.  One of the sixth version stands between brackets.  All else is a
name, which is read without regard to case; percent-encoded bytes in it are
decoded.  Names outside ASCII stay as they are.
-/

namespace FreightPromotion.Http

/-- Why an address cannot be read, or leads nowhere. -/
inductive AddressFault where
  /-- It has no scheme. -/
  | relative
  /-- It lacks a host. -/
  | emptyHost
  /-- The name of the host holds a character that it must not hold. -/
  | invalidName
  /-- The same, for a scheme that the program does not know. -/
  | invalidCharacter
  /-- The number of the host is not one of the fourth version. -/
  | invalidFourth
  /-- The number of the host is not one of the sixth version. -/
  | invalidSixth
  /-- The port is no number, or too great. -/
  | invalidPort
  /-- The scheme is not one that the program speaks.  The address is given in its
  normal form. -/
  | foreignScheme (address : String) (hasHost : Bool)
deriving DecidableEq, Repr

namespace AddressFault

/-- The wording of a fault. -/
def message : AddressFault → String
  | .relative => "relative URL without a base"
  | .emptyHost => "empty host"
  | .invalidName => "invalid international domain name"
  | .invalidCharacter => "invalid domain character"
  | .invalidFourth => "invalid IPv4 address"
  | .invalidSixth => "invalid IPv6 address"
  | .invalidPort => "invalid port number"
  | .foreignScheme _ _ => "URL scheme is not allowed"

/-- The address that a fault is reported for, if it could be read. -/
def address? : AddressFault → Option String
  | .foreignScheme address _ => some address
  | _ => none

end AddressFault

namespace Host

/-! ## Names -/

/-- The characters that cannot be part of a host. -/
def isForbidden (character : Char) : Bool :=
  character ∈ ['\x00', '\t', '\n', '\r', ' ', '#', '/', ':', '<', '>', '?', '@', '[', '\\', ']',
    '^', '|']

/-- The characters that cannot be part of the name of a host. -/
def isForbiddenInName (character : Char) : Bool :=
  isForbidden character || character.toNat < 0x20 || character.toNat = 0x7f || character = '%'

/-! ## Numbers of the fourth version -/

/-- The number that digits of a base stand for; no digits stand for zero. -/
def digitsValue? (base : Nat) (digits : List Char) : Option Nat :=
  digits.foldlM (fun value character =>
    (Text.hexValue? character).bind fun digit =>
      if digit < base then some (value * base + digit) else none) 0

/-- The number that a part stands for.  A zero before other digits announces base
eight, and with an `x` base sixteen. -/
def partValue? : List Char → Option Nat
  | [] => none
  | '0' :: 'x' :: digits => digitsValue? 16 digits
  | '0' :: 'X' :: digits => digitsValue? 16 digits
  | '0' :: digit :: digits => digitsValue? 8 (digit :: digits)
  | digits => digitsValue? 10 digits

/-- The parts of a host, without an empty one at the end. -/
def parts (host : String) : List (List Char) :=
  let parts := (host.splitOn ".").map String.toList
  if parts.length ≠ 1 ∧ parts.getLast? = some [] then parts.dropLast else parts

/-- Whether a host is a number: its last part is one, or has digits only. -/
def isNumeric (host : String) : Bool :=
  (parts host).getLast?.any fun last =>
    (!last.isEmpty && last.all Char.isDigit) || (partValue? last).isSome

/-- The bytes of a number of the fourth version. -/
def fourth? (host : String) : Option (List Nat) := do
  let values ← (parts host).mapM partValue?
  let last ← values.getLast?
  let leading := values.dropLast
  if leading.length ≤ 3 ∧ leading.all (· < 256) ∧ last < Nat.pow 256 (4 - leading.length) then
    let byte (place : Nat) : Nat := last / Nat.pow 256 place % 256
    some (leading ++ ((List.range (4 - leading.length)).reverse.map byte))
  else none

/-! ## Numbers of the sixth version -/

/-- Whether a part between colons is a number of up to four digits. -/
def isGroup (part : List Char) : Bool :=
  !part.isEmpty && decide (part.length ≤ 4) && part.all fun character =>
    (Text.hexValue? character).isSome

/-- Whether a text is the number of a byte, without superfluous zeros. -/
def isByte (part : List Char) : Bool :=
  !part.isEmpty && part.all Char.isDigit && (part.head? ≠ some '0' || decide (part.length = 1)) &&
    (digitsValue? 10 part).any (· < 256)

/-- The number of groups that parts between colons stand for.  The last of them
can be four bytes, and stands for two groups then. -/
def groupCount? (mayEndInBytes : Bool) : List String → Option Nat
  | [] => some 0
  | [last] =>
    let bytes := (last.splitOn ".").map String.toList
    if isGroup last.toList then some 1
    else if mayEndInBytes ∧ bytes.length = 4 ∧ bytes.all isByte then some 2
    else none
  | part :: rest =>
    if isGroup part.toList then (groupCount? mayEndInBytes rest).map (· + 1) else none

/-- Whether a text is a number of the sixth version: eight groups, or fewer with
two colons for those that are left out. -/
def isSixth (text : String) : Bool :=
  let groups (mayEndInBytes : Bool) (text : String) : Option Nat :=
    if text.isEmpty then some 0 else groupCount? mayEndInBytes (text.splitOn ":")
  match text.splitOn "::" with
  | [all] => groups true all = some 8
  | [before, after] =>
    match groups false before, groups true after with
    | some leading, some trailing => leading + trailing < 8
    | _, _ => false
  | _ => false

/-! ## Reading -/

/-- Reads a number of the sixth version between brackets, the first of which has
been read. -/
def readBracketed (rest : List Char) : Except AddressFault String :=
  if rest.getLast? = some ']' ∧ isSixth (String.ofList rest.dropLast) then
    .ok (String.ofList (('[' :: rest).map Char.toLower))
  else .error .invalidSixth

/-- Reads the host of an address with a known scheme. -/
def read (host : List Char) : Except AddressFault String :=
  match host with
  | [] => .error .emptyHost
  | '[' :: rest => readBracketed rest
  | _ =>
    match Text.decode? (Text.percentDecode host) with
    | none => .error .invalidName
    | some name =>
      let name := String.ofList (name.toList.map Char.toLower)
      if name.toList.any isForbiddenInName then .error .invalidName
      else if isNumeric name then
        match fourth? name with
        | some bytes => .ok (".".intercalate (bytes.map toString))
        | none => .error .invalidFourth
      else .ok name

end Host

end FreightPromotion.Http
