import FreightPromotion.Http.Host
import FreightPromotion.Http.User

/-!
# Addresses

The address of a message is a text that is read liberally: blanks around it and
line breaks in it are dropped, a backslash counts as a slash, and steps within
the path are taken.  What a message names as its target is the path and the
query, with the characters that may not stand in them percent-encoded.

Addresses with a scheme that the program does not speak are read too, for the
form in which they are reported.
-/

namespace FreightPromotion.Http

open FreightPromotion.Text (percentEncode)

/-- Where a message goes, and the user who is named there. -/
structure Url where
  secure : Bool
  host : String
  port : Nat
  target : String
  user : Option User
deriving DecidableEq, Repr

namespace Url

/-! ## Percent-encoding -/

/-- The characters that are encoded in a path. -/
def pathReserved : List Char := [' ', '\"', '<', '>', '\x60', '#', '?', '{', '}']

/-- The characters that are encoded in a query. -/
def queryReserved : List Char := [' ', '\"', '#', '<', '>']

/-- The characters that are encoded in a fragment. -/
def fragmentReserved : List Char := [' ', '\"', '<', '>', '\x60']

/-! ## Paths -/

/-- The characters between the segments of a path.  A backslash is one where the
scheme is known. -/
def separators (isKnown : Bool) : List Char :=
  if isKnown then ['/', '\\'] else ['/']

/-- Splits at separators. -/
def splitSegments (separators : List Char) : List Char → List (List Char)
  | [] => [[]]
  | character :: rest =>
    match splitSegments separators rest with
    | [] => [[]]
    | segment :: segments =>
      if character ∈ separators then [] :: segment :: segments
      else (character :: segment) :: segments

/-- A segment with every encoded dot decoded. -/
def decodeDots : List Char → List Char
  | '%' :: '2' :: 'e' :: rest => '.' :: decodeDots rest
  | '%' :: '2' :: 'E' :: rest => '.' :: decodeDots rest
  | character :: rest => character :: decodeDots rest
  | [] => []

/-- Takes the steps that segments stand for, after those in `before`, which is
reversed.  A path that ends in a step ends in a slash. -/
def takeSteps (before : List (List Char)) : List (List Char) → List (List Char)
  | [] => before.reverse
  | segment :: rest =>
    let isLast := rest.isEmpty
    let step := decodeDots segment
    if step = ['.', '.'] then
      let shorter := before.drop 1
      takeSteps (if isLast then [] :: shorter else shorter) rest
    else if step = ['.'] then takeSteps (if isLast then [] :: before else before) rest
    else takeSteps (segment :: before) rest

/-- The path as it is named in a message; the separator that it starts with may be
left out. -/
def normalPath (separators : List Char) (path : List Char) : List Char :=
  let relative := if path.head?.any (· ∈ separators) then path.drop 1 else path
  (takeSteps [] (splitSegments separators relative)).flatMap fun segment =>
    '/' :: percentEncode pathReserved segment

/-! ## Parts -/

/-- The characters that end the part of an address before the path. -/
def endsAuthority (isKnown : Bool) (character : Char) : Bool :=
  character ∈ separators isKnown || character = '?' || character = '#'

/-- The text without blanks around it, and without tabs and line breaks. -/
def clean (text : List Char) : List Char :=
  let blank (character : Char) : Bool := character.toNat ≤ 0x20
  ((text.dropWhile blank).reverse.dropWhile blank).reverse.filter
    fun character => character ∉ ['\t', '\n', '\r']

/-- The scheme of an address, in lower case, and what follows its colon. -/
def scheme? (text : List Char) : Option (String × List Char) :=
  let isPart (character : Char) : Bool :=
    character.isAlphanum || character = '+' || character = '-' || character = '.'
  match text.takeWhile isPart, text.dropWhile isPart with
  | first :: others, ':' :: rest =>
    if first.isAlpha then some (String.ofList ((first :: others).map Char.toLower), rest) else none
  | _, _ => none

/-- The path of an address, its query after the mark, and its fragment. -/
def located (text : List Char) : List Char × Option (List Char) × Option (List Char) :=
  let afterMark (mark : Char) (text : List Char) : Option (List Char) :=
    match text.dropWhile (· ≠ mark) with
    | [] => none
    | _ :: rest => some rest
  let beforeFragment := text.takeWhile (· ≠ '#')
  (beforeFragment.takeWhile (· ≠ '?'), afterMark '?' beforeFragment, afterMark '#' text)

/-- A query with its mark.  Single quotes are encoded too where the scheme is
known. -/
def queryText (isKnown : Bool) : Option (List Char) → List Char
  | none => []
  | some query =>
    '?' :: percentEncode (if isKnown then '\'' :: queryReserved else queryReserved) query

/-- A query and a fragment with their marks. -/
def ending (isKnown : Bool) (query? fragment? : Option (List Char)) : List Char :=
  let fragment :=
    match fragment? with
    | none => []
    | some fragment => '#' :: percentEncode fragmentReserved fragment
  queryText isKnown query? ++ fragment

/-- A host up to a colon that is not between brackets, and what follows it. -/
def splitHost (isBracketed : Bool) : List Char → List Char × List Char
  | [] => ([], [])
  | character :: rest =>
    if character = ':' ∧ !isBracketed then ([], character :: rest)
    else
      let inside := if character = '[' then true else if character = ']' then false else isBracketed
      let (host, after) := splitHost inside rest
      (character :: host, after)

/-- The port that a text names, if it names one. -/
def readPort : List Char → Except AddressFault (Option Nat)
  | [] => .ok none
  | _ :: digits =>
    let port := digits.foldl (fun value digit => value * 10 + (digit.toNat - 48)) 0
    if !digits.all Char.isDigit ∨ 65536 ≤ port then .error .invalidPort
    else .ok (if digits.isEmpty then none else some port)

/-- What stands before the path of an address: the text that names a user, the
host and the port. -/
structure Authority where
  user : List Char
  host : String
  port : Option Nat
deriving DecidableEq, Repr

/-- Reads what stands before the path.  A user may be named before the host, up to
the last sign for one. -/
def readAuthority (readHost : List Char → Except AddressFault String) (authority : List Char) :
    Except AddressFault Authority := do
  let named := (authority.reverse.takeWhile (· ≠ '@')).reverse
  let user := (authority.take (authority.length - named.length)).dropLast
  let (host, port) := splitHost false named
  let host ← readHost host
  return ⟨user, host, ← readPort port⟩

/-! ## Reading -/

/-- The schemes that have hosts and ports of a known kind, with their usual
ports. -/
def knownSchemes : List (String × Nat) :=
  [("http", 80), ("https", 443), ("ftp", 21), ("ws", 80), ("wss", 443)]

/-- What stands before the path of an address, as it is reported. -/
def Authority.text (authority : Authority) : String :=
  "//" ++ String.ofList (User.remainder authority.user) ++ authority.host ++
    match authority.port with
    | none => ""
    | some port => ":" ++ toString port

/-- An address that is reported: its scheme, what stands before its path, and the
rest. -/
def report (scheme : String) (authority : Option Authority) (rest : List Char) : AddressFault :=
  .foreignScheme
    (scheme ++ ":" ++ (authority.map Authority.text).getD "" ++ String.ofList rest)
    (authority.any fun authority => !authority.host.isEmpty)

/-- Reads an address with a known scheme, after the colon.  Any number of slashes
may stand before the host. -/
def readKnown (scheme : String) (usual : Nat) (text : List Char) : Except AddressFault Url := do
  let text := text.dropWhile (· ∈ separators true)
  let authority ← readAuthority Host.read (text.takeWhile (!endsAuthority true ·))
  let (path, query?, fragment?) := located (text.dropWhile (!endsAuthority true ·))
  let path := normalPath (separators true) path
  if scheme = "http" ∨ scheme = "https" then
    return {
      secure := scheme = "https"
      host := authority.host
      port := authority.port.getD usual
      target := String.ofList (path ++ queryText true query?)
      user := User.read authority.user }
  else
    let shown? := if authority.port = some usual then none else authority.port
    let shown := { authority with port := shown? }
    throw (report scheme (some shown) (path ++ ending true query? fragment?))

/-- Reads the host of an address with a scheme that is not known.  There may be
none, but then there is no port either. -/
def readForeignHost (host : List Char) : Except AddressFault String :=
  match host with
  | '[' :: rest => Host.readBracketed rest
  | _ =>
    if host.any Host.isForbidden then .error .invalidCharacter
    else .ok (String.ofList (percentEncode [] host))

/-- What is wrong with an address whose scheme is not known, after the colon.
After two slashes there is a host; and without a slash there are no segments. -/
def foreignFault (scheme : String) (text : List Char) : AddressFault :=
  let isKnown := false
  match text with
  | '/' :: '/' :: rest =>
    let text := rest.takeWhile (!endsAuthority isKnown ·)
    match readAuthority readForeignHost text with
    | .error fault => fault
    | .ok authority =>
      if authority.host.isEmpty ∧ (authority.port.isSome ∨ !text.isEmpty) then .emptyHost
      else
        let (path, query?, fragment?) := located (rest.dropWhile (!endsAuthority isKnown ·))
        let path := if path.isEmpty then [] else normalPath (separators isKnown) path
        report scheme (some authority) (path ++ ending isKnown query? fragment?)
  | _ =>
    let (path, query?, fragment?) := located text
    let path :=
      if path.head? = some '/' then normalPath (separators isKnown) path else percentEncode [] path
    report scheme none (path ++ ending isKnown query? fragment?)

/-- What is wrong with the address of a file, after the colon.  The local host is
not named. -/
def fileFault (text : List Char) : AddressFault :=
  let isSlash (character : Char) : Bool := character ∈ separators true
  let hasHost := (text.take 2).length = 2 && (text.take 2).all isSlash
  let rest := if hasHost then text.drop 2 else text
  let authority := if hasHost then rest.takeWhile (!endsAuthority true ·) else []
  let (path, query?, fragment?) := located (rest.drop authority.length)
  let path := normalPath (separators true) path ++ ending true query? fragment?
  match if authority.isEmpty then .ok "" else Host.read authority with
  | .error fault => fault
  | .ok host => report "file" (some ⟨[], if host = "localhost" then "" else host, none⟩) path

/-- Reads the address of a server that speaks the protocol, with or without
encryption. -/
def read (text : String) : Except AddressFault Url :=
  match scheme? (clean text.toList) with
  | none => .error .relative
  | some (scheme, rest) =>
    if scheme = "file" then .error (fileFault rest)
    else
      match knownSchemes.lookup scheme with
      | some usual => readKnown scheme usual rest
      | none => .error (foreignFault scheme rest)

end Url

end FreightPromotion.Http
