import FreightPromotion.Text.Alphanumeric
import FreightPromotion.Text.Hexadecimal

/-!
# Patterns for the values of fields

A pattern is a regular expression.  This module says which texts are patterns; it
does not search.

A pattern is a sequence of parts: characters, classes of characters, places such
as the start of a line, groups, and marks that repeat the part before them or
separate alternatives.  Flags change how what follows them is read, up to the end
of the group that they stand in.

Patterns are searched for without tables of characters.  So what needs such a
table is no pattern: the classes of digits, of blanks and of word characters, the
borders of words, and letters of either case, unless a flag restricts them to
ASCII.  A pattern that is restricted in this way must not match a part of a
character.

A pattern stands between braces, and the first closing brace ends it.  So it
holds no counts of repetitions, which stand between braces too.
-/

namespace FreightPromotion.Pattern

open FreightPromotion.Text (hexValue? isAlphabetic isAlphanumeric isWhiteSpace)

/-! ## Flags -/

/-- How a part of a pattern is read. -/
structure Mode where
  /-- White space and comments may stand between the parts. -/
  isSpaced : Bool := false
  /-- Letters match in either case. -/
  isFolded : Bool := false
  /-- Parts match characters, and not bytes. -/
  isUnicode : Bool := true
deriving DecidableEq, Repr

/-- The letters of the flags. -/
def flagLetters : List Char := ['i', 'm', 's', 'U', 'u', 'R', 'x']

namespace Mode

/-- The text from its first character that counts and is not among those that are
passed over.  A comment starts with a number sign and ends with the line. -/
def skip (mode : Mode) (passed : List Char) (isComment : Bool) : List Char → List Char
  | [] => []
  | character :: rest =>
    if isComment then skip mode passed (character ≠ '\n') rest
    else if character ∈ passed || mode.isSpaced && isWhiteSpace character then
      skip mode passed false rest
    else if mode.isSpaced && character = '#' then skip mode passed true rest
    else character :: rest

/-- The text from the next part on. -/
def next (mode : Mode) (characters : List Char) : List Char :=
  skip mode [] false characters

/-- Sets the flags before a minus sign and clears those after it. -/
def change (mode : Mode) (flags : List Char) : Mode :=
  let set := flags.takeWhile (· ≠ '-')
  let cleared := flags.dropWhile (· ≠ '-')
  let value (letter : Char) (before : Bool) : Bool :=
    if letter ∈ set then true else if letter ∈ cleared then false else before
  { isSpaced := value 'x' mode.isSpaced
    isFolded := value 'i' mode.isFolded
    isUnicode := value 'u' mode.isUnicode }

/-- Whether letters of either case are sought among all characters, which would
need a table. -/
def needsCases (mode : Mode) : Bool :=
  mode.isFolded && mode.isUnicode

end Mode

/-- Whether characters are flags: letters and one minus sign, none of them twice,
and no minus sign at the end. -/
def areFlags (characters : List Char) : Bool :=
  characters.all (· ∈ '-' :: flagLetters) && decide characters.Nodup &&
    characters.getLast? ≠ some '-'

/-! ## Characters and classes -/

/-- What a character, or an escape, stands for. -/
inductive Atom where
  /-- A code point, perhaps given as a byte. -/
  | point (value : Nat) (isByte : Bool)
  /-- Digits, blanks or word characters, or all but these. -/
  | kind (isNegated : Bool)
  /-- A place in the text, perhaps one that depends on which characters belong to
  words. -/
  | place (dependsOnWords : Bool)
deriving DecidableEq, Repr

namespace Atom

/-- Whether an atom may stand outside classes. -/
def isAllowed (mode : Mode) : Atom → Bool
  | .point value isByte =>
    if mode.isUnicode then !mode.isFolded else !isByte || value < 128
  | .kind isNegated => !mode.isUnicode && !isNegated
  | .place dependsOnWords => !mode.isUnicode || !dependsOnWords

/-- Whether an atom may stand in a class. -/
def isMember (mode : Mode) : Atom → Bool
  | .point value _ => mode.isUnicode || value < 128
  | .kind isNegated => !mode.isUnicode && !isNegated
  | .place _ => false

/-- Whether two atoms may be the ends of a range. -/
def isRange : Atom → Atom → Bool
  | .point low _, .point high _ => low ≤ high
  | _, _ => false

end Atom

/-- The code point that some hexadecimal digits stand for, after those that gave
`value`. -/
def readPoint? (mode : Mode) : Nat → Nat → List Char → Option (Nat × List Char)
  | 0, value, characters => if value.isValidChar then some (value, characters) else none
  | count + 1, value, characters =>
    match mode.next characters with
    | [] => none
    | character :: rest =>
      (hexValue? character).bind fun digit => readPoint? mode count (value * 16 + digit) rest

/-- What an escape stands for; it is read after the backslash.  A character that
is no letter and no digit stands for itself. -/
def readEscape? (mode : Mode) : List Char → Option (Atom × List Char)
  | [] => none
  | character :: rest =>
    let point (digits : Nat) :=
      (readPoint? mode digits 0 rest).map fun (value, rest) =>
        (Atom.point value (digits = 2), rest)
    match character with
    | 'x' => point 2
    | 'u' => point 4
    | 'U' => point 8
    | 'd' | 's' | 'w' => some (.kind false, rest)
    | 'D' | 'S' | 'W' => some (.kind true, rest)
    | 'a' => some (.point 7 false, rest)
    | 'f' => some (.point 12 false, rest)
    | 't' => some (.point 9 false, rest)
    | 'n' => some (.point 10 false, rest)
    | 'r' => some (.point 13 false, rest)
    | 'v' => some (.point 11 false, rest)
    | 'A' | 'z' => some (.place false, rest)
    | 'b' | 'B' | '<' | '>' => some (.place true, rest)
    | _ =>
      if character.isAlphanum || 128 ≤ character.toNat then none
      else some (.point character.toNat false, rest)

/-- A character of a class, or an escape in it. -/
def readMember? (mode : Mode) : List Char → Option (Atom × List Char)
  | [] => none
  | '\\' :: rest => readEscape? mode rest
  | character :: rest => some (.point character.toNat false, rest)

/-- A member of a class, or a range of them.  A hyphen stands for itself before
the end of the class, and two of them are an operator. -/
def readRange? (mode : Mode) (characters : List Char) : Option (List Char) := do
  let (low, rest) ← readMember? mode characters
  let alone := if low.isMember mode then some (mode.next rest) else none
  match mode.next rest with
  | '-' :: after =>
    match mode.next after with
    | [] => none
    | character :: _ =>
      if character ∈ [']', '-'] then alone
      else
        let (high, rest) ← readMember? mode (mode.next after)
        if low.isRange high && low.isMember mode && high.isMember mode then some rest else none
  | _ => alone

/-- The names of classes. -/
def classNames : List String :=
  ["alnum", "alpha", "ascii", "blank", "cntrl", "digit", "graph", "lower", "print", "punct",
    "space", "upper", "word", "xdigit"]

/-- A class that is named within another one, read after its bracket: whether the
name is negated, and what follows. -/
def readNamed? : List Char → Option (Bool × List Char)
  | ':' :: rest =>
    let isNegated := rest.head? = some '^'
    let rest := if isNegated then rest.tail else rest
    let name := rest.takeWhile (· ≠ ':')
    match rest.drop name.length with
    | ':' :: ']' :: rest =>
      if String.ofList name ∈ classNames then some (isNegated, rest) else none
    | _ => none
  | _ => none

/-- The rest of a class from the bracket that opens it.  A bracket right after the
opening stands for itself, and so do hyphens there. -/
def readOpening? (mode : Mode) (characters : List Char) : Option (List Char) :=
  let start (characters : List Char) : List Char :=
    match mode.next characters with
    | ']' :: rest => mode.next rest
    | rest => mode.skip ['-'] false rest
  match mode.next characters with
  | '^' :: rest => if mode.isUnicode then some (start rest) else none
  | rest => some (start rest)

/-- What follows a class that stands in `depth` others, from any place in it on.
The operators on classes combine what stands on both sides of them, which may be
nothing. -/
def readClass? (mode : Mode) (depth : Nat) (characters : List Char) : Option (List Char) :=
  let proceed (depth : Nat) (rest : List Char) : Option (List Char) :=
    if _shorter : rest.length < characters.length then readClass? mode depth rest else none
  match mode.next characters with
  | [] => none
  | '[' :: rest =>
    match readNamed? rest with
    | some (isNegated, rest) =>
      if isNegated && !mode.isUnicode then none else proceed depth rest
    | none => (readOpening? mode rest).bind (proceed (depth + 1))
  | ']' :: rest =>
    match depth with
    | 0 => some rest
    | depth + 1 => proceed depth rest
  | '&' :: '&' :: rest | '-' :: '-' :: rest | '~' :: '~' :: rest => proceed depth rest
  | member => (readRange? mode member).bind (proceed depth)
termination_by characters.length

/-! ## Groups -/

/-- Whether a name can be given to a group. -/
def isGroupName : List Char → Bool
  | [] => false
  | first :: rest =>
    (first = '_' || isAlphabetic first) &&
      rest.all fun character => character ∈ ['_', '.', '[', ']'] || isAlphanumeric character

/-- What an opening parenthesis starts. -/
inductive Opening where
  /-- A group, how it is read, and its name. -/
  | group (mode : Mode) (name? : Option String)
  /-- Flags for what follows. -/
  | flags (mode : Mode)
deriving DecidableEq, Repr

/-- A group with a name, read after the sign before the name. -/
def readName? (mode : Mode) (characters : List Char) : Option (Opening × List Char) :=
  let name := characters.takeWhile (· ≠ '>')
  match characters.drop name.length with
  | [] => none
  | _ :: rest =>
    if isGroupName name then some (.group mode (some (String.ofList name)), rest) else none

/-- What an opening parenthesis starts, read after it. -/
def readGroup? (mode : Mode) (characters : List Char) : Option (Opening × List Char) :=
  match mode.next characters with
  | '?' :: 'P' :: '<' :: rest => readName? mode rest
  | '?' :: '<' :: rest => readName? mode rest
  | '?' :: rest =>
    let flags := rest.takeWhile fun character => character ≠ ':' && character ≠ ')'
    if !areFlags flags then none
    else
      match rest.drop flags.length with
      | ':' :: rest => some (.group (mode.change flags) none, rest)
      | _ :: rest => if flags.isEmpty then none else some (.flags (mode.change flags), rest)
      | [] => none
  | rest => some (.group mode none, rest)

/-! ## Patterns -/

/-- How far a pattern has been read. -/
structure Progress where
  /-- How what follows is read. -/
  mode : Mode := {}
  /-- How what follows each open group is read, innermost first. -/
  outer : List Mode := []
  /-- The names of groups. -/
  names : List String := []
  /-- A mark that repeats a part may follow. -/
  isRepeatable : Bool := false
deriving DecidableEq, Repr

namespace Progress

/-- After a part that can be repeated. -/
def past (progress : Progress) : Progress :=
  { progress with isRepeatable := true }

/-- After what an opening parenthesis starts, unless a name is given twice. -/
def opened? (progress : Progress) : Opening → Option Progress
  | .flags mode => some { progress with mode, isRepeatable := false }
  | .group mode name? =>
    if name?.any (· ∈ progress.names) then none
    else
      some
        { mode
          outer := progress.mode :: progress.outer
          names := name?.toList ++ progress.names
          isRepeatable := false }

/-- After a closing parenthesis, if a group is open. -/
def closed? (progress : Progress) : Option Progress :=
  match progress.outer with
  | [] => none
  | mode :: outer => some { progress with mode, outer, isRepeatable := true }

/-- Reads one part of a pattern. -/
def step? (progress : Progress) (characters : List Char) : Option (Progress × List Char) :=
  let mode := progress.mode
  let atom (read : Option (Atom × List Char)) : Option (Progress × List Char) :=
    match read with
    | some (atom, rest) => if atom.isAllowed mode then some (progress.past, rest) else none
    | none => none
  match characters with
  | [] => none
  | '(' :: rest =>
    (readGroup? mode rest).bind fun (opening, rest) =>
      (progress.opened? opening).map fun progress => (progress, rest)
  | ')' :: rest => progress.closed?.map fun progress => (progress, rest)
  | '|' :: rest => some ({ progress with isRepeatable := false }, rest)
  | '?' :: rest | '*' :: rest | '+' :: rest =>
    if progress.isRepeatable then some (progress, rest) else none
  | '{' :: _ => none
  | '[' :: rest =>
    if mode.needsCases then none
    else
      (readOpening? mode rest).bind fun rest =>
        (readClass? mode 0 rest).map fun rest => (progress.past, rest)
  | '.' :: rest => if mode.isUnicode then some (progress.past, rest) else none
  | '^' :: rest | '$' :: rest => some (progress.past, rest)
  | '\\' :: rest => atom (readEscape? mode rest)
  | character :: rest => atom (some (.point character.toNat false, rest))

/-- Whether the rest of a pattern is one, and every group is closed at its end. -/
def isComplete (progress : Progress) (characters : List Char) : Bool :=
  match progress.mode.next characters with
  | [] => progress.outer.isEmpty
  | next =>
    match progress.step? next with
    | none => false
    | some (progress, rest) =>
      if _shorter : rest.length < characters.length then progress.isComplete rest else false
termination_by characters.length

end Progress

/-- Whether a text is a pattern. -/
def isPattern (characters : List Char) : Bool :=
  Progress.isComplete {} characters

end FreightPromotion.Pattern
