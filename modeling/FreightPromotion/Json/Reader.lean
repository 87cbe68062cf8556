import FreightPromotion.Json.Skipped

/-!
# Reading a document of a known shape

A reader is told how many more brackets may be opened and returns its value with
what follows it.  Free-form values, texts, flags, lists, maps and records each
have one, and those of records and lists are built from those of their parts.

A record is written as an object, whose members may come in any order, or as a
list of its fields in the order of their declaration.  Fields that are absent
keep the value they have in the blank record.  Members that no field names are
passed over.
-/

namespace FreightPromotion.Json

open FreightPromotion.Text (Bytes)

/-- Reads one value, given the number of brackets that may still be opened. -/
abbrev Reader (α : Type) := Nat → Bytes → Except Fault (α × Bytes)

/-- The number of brackets that may be open at once. -/
def deepest : Nat := 127

/-- The bracket at the start of `input` may be opened if the limit is not
reached. -/
def descend (nesting : Nat) (input : Bytes) : Except Fault Nat :=
  match nesting with
  | 0 => .error (.at .nestedTooDeeply input)
  | inner + 1 => .ok inner

/-! ## Lists and objects -/

/-- The elements of a list after the first, and its closing bracket.  Every
element takes at least one byte, which bounds their number. -/
def readMoreElements {α : Type} (element : Bytes → Except Fault (α × Bytes)) :
    Nat → Bytes → Except Fault (List α × Bytes)
  | 0, input => .error (.at .unfinishedList input)
  | bound + 1, input =>
    match skipBlanks input with
    | [] => .error (.at .unfinishedList [])
    | byte :: rest =>
      if byte = ']'.toUInt8 then .ok ([], rest)
      else if byte ≠ ','.toUInt8 then .error (.at .expectedCommaInList (byte :: rest))
      else
        match skipBlanks rest with
        | [] => .error (.at .unfinishedValue [])
        | next :: others =>
          if next = ']'.toUInt8 then .error (.at .trailingComma (next :: others))
          else do
            let (value, after) ← element (next :: others)
            let (values, after) ← readMoreElements element bound after
            .ok (value :: values, after)

/-- The elements of a list after its opening bracket, and its closing bracket. -/
def readElements {α : Type} (element : Bytes → Except Fault (α × Bytes)) (input : Bytes) :
    Except Fault (List α × Bytes) :=
  match skipBlanks input with
  | [] => .error (.at .unfinishedList [])
  | byte :: rest =>
    if byte = ']'.toUInt8 then .ok ([], rest)
    else do
      let (value, after) ← element (byte :: rest)
      let (values, after) ← readMoreElements element (after.length + 1) after
      .ok (value :: values, after)

/-- The members of an object after the first, and its closing bracket.  The
state collects them, one key at a time; what follows a key is left to `member`. -/
def readMoreMembers {σ : Type} (member : σ → String → Bytes → Except Fault (σ × Bytes)) :
    Nat → σ → Bytes → Except Fault (σ × Bytes)
  | 0, _, input => .error (.at .unfinishedObject input)
  | bound + 1, state, input =>
    match skipBlanks input with
    | [] => .error (.at .unfinishedObject [])
    | byte :: rest =>
      if byte = '\x7d'.toUInt8 then .ok (state, rest)
      else if byte ≠ ','.toUInt8 then .error (.at .expectedCommaInObject (byte :: rest))
      else
        match skipBlanks rest with
        | [] => .error (.at .unfinishedValue [])
        | next :: others =>
          if next = '\"'.toUInt8 then do
            let (key, after) ← readQuoted others
            let (state, after) ← member state key after
            readMoreMembers member bound state after
          else if next = '\x7d'.toUInt8 then .error (.at .trailingComma (next :: others))
          else .error (.at .keyNotText (next :: others))

/-- The members of an object after its opening bracket, and its closing
bracket. -/
def readMembers {σ : Type} (member : σ → String → Bytes → Except Fault (σ × Bytes))
    (state : σ) (input : Bytes) : Except Fault (σ × Bytes) :=
  match skipBlanks input with
  | [] => .error (.at .unfinishedObject [])
  | byte :: rest =>
    if byte = '\x7d'.toUInt8 then .ok (state, rest)
    else if byte = '\"'.toUInt8 then do
      let (key, after) ← readQuoted rest
      let (state, after) ← member state key after
      readMoreMembers member (after.length + 1) state after
    else .error (.at .keyNotText (byte :: rest))

/-- What follows the colon after a key. -/
def readColon (input : Bytes) : Except Fault Bytes :=
  match skipBlanks input with
  | [] => .error (.at .unfinishedObject [])
  | byte :: rest =>
    if byte = ':'.toUInt8 then .ok rest else .error (.at .expectedColon (byte :: rest))

/-- A member entered under its key, in place of an earlier one with that key. -/
def readEntry {α : Type} (value : Bytes → Except Fault (α × Bytes))
    (entries : List (String × α)) (key : String) (input : Bytes) :
    Except Fault (List (String × α) × Bytes) := do
  let input ← readColon input
  let (value, after) ← value input
  .ok (enter key value entries, after)

/-! ## Free-form values -/

/-- A value without brackets; `none` if the value starts with one. -/
def readSimple (byte : UInt8) (rest : Bytes) : Except Fault (Option Value × Bytes) :=
  match Char.ofUInt8 byte with
  | 'n' => (readLetters ['u', 'l', 'l'] rest).map (some .null, ·)
  | 't' => (readLetters ['r', 'u', 'e'] rest).map (some (.bool true), ·)
  | 'f' => (readLetters ['a', 'l', 's', 'e'] rest).map (some (.bool false), ·)
  | '-' => (readNumber false rest).map fun (number, after) => (some (.number number), after)
  | '\"' => (readQuoted rest).map fun (text, after) => (some (.text text), after)
  | '[' | '\x7b' => .ok (none, byte :: rest)
  | _ =>
    if isDigit byte then
      (readNumber true (byte :: rest)).map fun (number, after) => (some (.number number), after)
    else .error (.at .expectedValue (byte :: rest))

/-- A value of any shape. -/
def readValue : Reader Value
  | nesting, input =>
    withNext input fun byte rest => do
      match ← readSimple byte rest with
      | (some value, after) => .ok (value, after)
      | (none, _) =>
        match nesting with
        | 0 => .error (.at .nestedTooDeeply (byte :: rest))
        | inner + 1 =>
          if byte = '['.toUInt8 then
            (readElements (readValue inner) rest).map fun (items, after) => (.array items, after)
          else
            (readMembers (readEntry (readValue inner)) [] rest).map fun (members, after) =>
              (.object members, after)

/-! ## Values of one shape -/

/-- The fault of a value of another shape than expected.  A value without
brackets is read first, and its own faults come before this one. -/
def wrongShape (expected : String) (byte : UInt8) (rest : Bytes) : Fault :=
  match readSimple byte rest with
  | .error fault => fault
  | .ok (found, after) =>
    let found : Found :=
      match found with
      | some .null => .null
      | some (.bool value) => .bool value
      | some (.number value) => .number value
      | some (.text value) => .text value
      | _ => if byte = '['.toUInt8 then .sequence else .map
    .before (.wrongShape found expected) after

/-- A text. -/
def readText : Reader String := fun _ input =>
  withNext input fun byte rest =>
    if byte = '\"'.toUInt8 then readQuoted rest
    else .error (wrongShape "a string" byte rest)

/-- A flag. -/
def readFlag : Reader Bool := fun _ input =>
  withNext input fun byte rest =>
    if byte = 't'.toUInt8 then (readLetters ['r', 'u', 'e'] rest).map (true, ·)
    else if byte = 'f'.toUInt8 then (readLetters ['a', 'l', 's', 'e'] rest).map (false, ·)
    else .error (wrongShape "a boolean" byte rest)

/-- A value that may be null instead. -/
def readOptional {α : Type} (value : Reader α) : Reader (Option α) := fun nesting input =>
  match skipBlanks input with
  | [] => (value nesting []).map fun (found, after) => (some found, after)
  | byte :: rest =>
    if byte = 'n'.toUInt8 then (readLetters ['u', 'l', 'l'] rest).map (none, ·)
    else (value nesting (byte :: rest)).map fun (found, after) => (some found, after)

/-- A list of values of one shape. -/
def readList {α : Type} (element : Reader α) : Reader (List α) := fun nesting input =>
  withNext input fun byte rest => do
    if byte = '['.toUInt8 then
      let inner ← descend nesting (byte :: rest)
      readElements (element inner) rest
    else .error (wrongShape "a sequence" byte rest)

/-- A map from texts to texts, ordered by key. -/
def readTextMap : Reader (List (String × String)) := fun nesting input =>
  withNext input fun byte rest => do
    if byte = '\x7b'.toUInt8 then
      let inner ← descend nesting (byte :: rest)
      readMembers (readEntry (readText inner)) [] rest
    else .error (wrongShape "a map" byte rest)

/-! ## Records -/

/-- A field of a record: its name, and how its value is read into the record. -/
structure Field (σ : Type) where
  name : String
  read : Nat → σ → Bytes → Except Fault (σ × Bytes)

/-- The field that holds a value of the given shape. -/
def Field.of {σ α : Type} (name : String) (value : Reader α) (store : σ → α → σ) : Field σ where
  name := name
  read nesting record input := do
    let (value, after) ← value nesting input
    .ok (store record value, after)

/-- The fault of a field that is named again.  It is reported after the key and
the blanks that follow it, and after a bracket that closes the object there. -/
def repeatedField (name : String) (input : Bytes) : Fault :=
  match skipBlanks input with
  | [] => .before (.repeatedField name) []
  | byte :: rest =>
    if byte = '\x7d'.toUInt8 then .before (.repeatedField name) rest
    else .before (.repeatedField name) (byte :: rest)

/-- Reads one member of a record in the form of an object.  The state holds the
record and the names of the fields seen so far. -/
def readField {σ : Type} (fields : List (Field σ)) (nesting : Nat)
    (state : σ × List String) (key : String) (input : Bytes) :
    Except Fault ((σ × List String) × Bytes) :=
  match fields.find? (·.name = key) with
  | none => do
    let input ← readColon input
    let after ← skipValue input
    .ok (state, after)
  | some field =>
    if key ∈ state.2 then .error (repeatedField key input)
    else do
      let input ← readColon input
      let (record, after) ← field.read nesting state.1 input
      .ok ((record, key :: state.2), after)

/-- The closing bracket of a record in the form of a list. -/
def readRecordEnd (input : Bytes) : Except Fault Bytes :=
  match skipBlanks input with
  | [] => .error (.at .unfinishedList [])
  | byte :: rest =>
    if byte = ']'.toUInt8 then .ok rest
    else if byte ≠ ','.toUInt8 then .error (.at .trailingCharacters (byte :: rest))
    else
      match skipBlanks rest with
      | [] => .error (.at .trailingCharacters [])
      | next :: others =>
        if next = ']'.toUInt8 then .error (.at .trailingComma (next :: others))
        else .error (.at .trailingCharacters (next :: others))

/-- The fields of a record in the form of a list, after those that have been
read. -/
def readMoreFields {σ : Type} (nesting : Nat) :
    List (Field σ) → σ → Bytes → Except Fault (σ × Bytes)
  | [], record, input => do
    let after ← readRecordEnd input
    .ok (record, after)
  | field :: fields, record, input =>
    match skipBlanks input with
    | [] => .error (.at .unfinishedList [])
    | byte :: rest =>
      if byte = ']'.toUInt8 then .ok (record, rest)
      else if byte ≠ ','.toUInt8 then .error (.at .expectedCommaInList (byte :: rest))
      else
        match skipBlanks rest with
        | [] => .error (.at .unfinishedValue [])
        | next :: others =>
          if next = ']'.toUInt8 then .error (.at .trailingComma (next :: others))
          else do
            let (record, after) ← field.read nesting record (next :: others)
            readMoreFields nesting fields record after

/-- The fields of a record in the form of a list, after its opening bracket. -/
def readFields {σ : Type} (nesting : Nat) (fields : List (Field σ)) (blank : σ)
    (input : Bytes) : Except Fault (σ × Bytes) :=
  match fields, skipBlanks input with
  | [], _ => do
    let after ← readRecordEnd input
    .ok (blank, after)
  | _ :: _, [] => .error (.at .unfinishedList [])
  | field :: fields, byte :: rest =>
    if byte = ']'.toUInt8 then .ok (blank, rest)
    else do
      let (record, after) ← field.read nesting blank (byte :: rest)
      readMoreFields nesting fields record after

/-- A record in either form. -/
def readRecord {σ : Type} (name : String) (fields : List (Field σ)) (blank : σ) : Reader σ :=
  fun nesting input =>
    withNext input fun byte rest => do
      if byte = '\x7b'.toUInt8 then
        let inner ← descend nesting (byte :: rest)
        let ((record, _), after) ← readMembers (readField fields inner) (blank, []) rest
        .ok (record, after)
      else if byte = '['.toUInt8 then
        let inner ← descend nesting (byte :: rest)
        readFields inner fields blank rest
      else .error (wrongShape ("struct " ++ name) byte rest)

/-! ## Documents -/

/-- Reads a document that holds one value and nothing but blanks after it. -/
def read {α : Type} (reader : Reader α) (input : Bytes) : Except Malformed α :=
  let outcome : Except Fault α := do
    let (value, after) ← reader deepest input
    match skipBlanks after with
    | [] => .ok value
    | _ :: _ => .error (.at .trailingCharacters (skipBlanks after))
  outcome.mapError (Fault.locate input)

end FreightPromotion.Json
