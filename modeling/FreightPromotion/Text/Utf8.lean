/-!
# Text as bytes

A document, a file and an HTTP body are sequences of bytes; names and messages
are text.  This module passes between the two.  Decoding is strict where the
program needs the text and lossy where it only shows it: a sequence of bytes
that is not well-formed UTF-8 is then replaced by U+FFFD, one replacement for
each maximal initial part of a well-formed sequence, as the Unicode Standard
recommends.
-/

namespace FreightPromotion.Text

/-- The content of a document, a file or a message body. -/
abbrev Bytes := List UInt8

/-- The UTF-8 form of a text. -/
def encode (text : String) : Bytes :=
  text.toByteArray.data.toList

/-- The text whose UTF-8 form is given, if there is one. -/
def decode? (bytes : Bytes) : Option String :=
  String.fromUTF8? ⟨bytes.toArray⟩

private theorem toByteArray_encode (text : String) :
    (⟨(encode text).toArray⟩ : ByteArray) = text.toByteArray := by
  simp [encode]

theorem decode?_encode (text : String) : decode? (encode text) = some text := by
  unfold decode? String.fromUTF8?
  rw [toByteArray_encode, dif_pos text.isValidUTF8]
  rfl

@[simp]
theorem encode_append (first second : String) :
    encode (first ++ second) = encode first ++ encode second := by
  simp [encode, String.toByteArray_append]

@[simp]
theorem encode_empty : encode "" = [] := rfl

/-! ## Sequences -/

/-- The ranges in which the bytes after `lead` must lie for the sequence to be
well formed, or nothing if no sequence starts with `lead`.  Overlong forms,
surrogates and code points above U+10FFFF are excluded by the narrower range of
the second byte. -/
def continuations? (lead : UInt8) : Option (List (UInt8 × UInt8)) :=
  if lead ≤ 0x7f then some []
  else if lead < 0xc2 then none
  else if lead ≤ 0xdf then some [(0x80, 0xbf)]
  else if lead = 0xe0 then some [(0xa0, 0xbf), (0x80, 0xbf)]
  else if lead = 0xed then some [(0x80, 0x9f), (0x80, 0xbf)]
  else if lead ≤ 0xef then some [(0x80, 0xbf), (0x80, 0xbf)]
  else if lead = 0xf0 then some [(0x90, 0xbf), (0x80, 0xbf), (0x80, 0xbf)]
  else if lead ≤ 0xf3 then some [(0x80, 0xbf), (0x80, 0xbf), (0x80, 0xbf)]
  else if lead = 0xf4 then some [(0x80, 0x8f), (0x80, 0xbf), (0x80, 0xbf)]
  else none

/-- The number of leading bytes that lie in the given ranges, one range a byte. -/
def matching : List (UInt8 × UInt8) → Bytes → Nat
  | (low, high) :: ranges, byte :: bytes =>
    if low ≤ byte ∧ byte ≤ high then matching ranges bytes + 1 else 0
  | _, _ => 0

/-- What follows a lead byte: a complete sequence, or the length of the part
that could have started one. -/
inductive Sequence where
  | wellFormed (length : Nat)
  | broken (length : Nat)

/-- Classifies the sequence that `lead` starts when `rest` comes after it.  The
lengths do not count `lead` itself. -/
def Sequence.starting (lead : UInt8) (rest : Bytes) : Sequence :=
  match continuations? lead with
  | none => .broken 0
  | some ranges =>
    let length := matching ranges rest
    if length = ranges.length then .wellFormed length else .broken length

/-- The number of bytes before the first sequence that is not well formed, or
all of them. -/
def wellFormedLength : Bytes → Nat
  | [] => 0
  | lead :: rest =>
    match Sequence.starting lead rest with
    | .broken _ => 0
    | .wellFormed length => length + 1 + wellFormedLength (rest.drop length)
termination_by bytes => bytes.length
decreasing_by rw [List.length_drop, List.length_cons]; omega

/-- The code point that a complete sequence stands for: the payload of the lead
byte followed by six bits from each of the others. -/
def codePoint (lead : UInt8) (continuation : Bytes) : Nat :=
  let payload :=
    match continuation.length with
    | 0 => lead.toNat
    | 1 => lead.toNat % 32
    | 2 => lead.toNat % 16
    | _ => lead.toNat % 8
  continuation.foldl (fun value byte => value * 64 + byte.toNat % 64) payload

/-- The characters of a sequence of bytes, with U+FFFD for what is not well
formed. -/
def charsLossy : Bytes → List Char
  | [] => []
  | lead :: rest =>
    match Sequence.starting lead rest with
    | .broken length => '\uFFFD' :: charsLossy (rest.drop length)
    | .wellFormed length =>
      Char.ofNat (codePoint lead (rest.take length)) :: charsLossy (rest.drop length)
termination_by bytes => bytes.length
decreasing_by all_goals (rw [List.length_drop, List.length_cons]; omega)

/-- The text shown for a sequence of bytes. -/
def decodeLossy (bytes : Bytes) : String :=
  String.ofList (charsLossy bytes)

end FreightPromotion.Text
