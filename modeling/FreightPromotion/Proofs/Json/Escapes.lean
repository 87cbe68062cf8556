import FreightPromotion.Json.Printer
import FreightPromotion.Json.Reader
import FreightPromotion.Proofs.Json.Words

/-!
# Reading a printed text

A text is printed between quotes with some of its characters escaped, and reading
undoes this for every text (`readQuoted_textWord`).  An escape stands for the bytes
of its character, and a character that is printed as itself consists of bytes that
neither end the text nor start an escape.  Both are the same to the reader: it goes
on with those bytes before it (`readContent_escape`).
-/

namespace FreightPromotion.Json

open FreightPromotion.Text (Bytes encode)

/-! ## Characters as bytes -/

/-- The UTF-8 form of some characters. -/
def bytesOf (characters : List Char) : Bytes :=
  characters.flatMap String.utf8EncodeChar

@[simp]
theorem bytesOf_nil : bytesOf [] = [] := rfl

@[simp]
theorem bytesOf_cons (character : Char) (characters : List Char) :
    bytesOf (character :: characters) = String.utf8EncodeChar character ++ bytesOf characters := rfl

theorem bytesOf_append (first second : List Char) :
    bytesOf (first ++ second) = bytesOf first ++ bytesOf second :=
  List.flatMap_append

theorem encode_ofList (characters : List Char) :
    encode (String.ofList characters) = bytesOf characters := by
  have hbytes : ∀ bytes : List UInt8, bytes.toByteArray.data.toList = bytes := by simp
  induction characters with
  | nil => rfl
  | cons character characters ih =>
      rw [bytesOf_cons, ← ih, encode, encode, String.toByteArray_ofList, String.toByteArray_ofList,
        List.utf8Encode_cons, List.utf8Encode_singleton, ByteArray.data_append, Array.toList_append,
        hbytes]

theorem bytesOf_toList (text : String) : bytesOf text.toList = encode text := by
  rw [← encode_ofList, String.ofList_toList]

/-- The characters of the first half of all bytes are bytes themselves. -/
theorem bytesOf_eq_map {characters : List Char}
    (hbytes : ∀ character ∈ characters, character.toNat < 128) :
    bytesOf characters = characters.map Char.toUInt8 := by
  induction characters with
  | nil => rfl
  | cons character characters ih =>
      have hpoint : character.val.toNat ≤ 127 := Nat.le_of_lt_succ (hbytes _ List.mem_cons_self)
      have hlater := fun other hother => hbytes other (List.mem_cons_of_mem _ hother)
      have hbyte : UInt8.ofNat character.val.toNat = character.toUInt8 := rfl
      rw [bytesOf_cons, ih hlater, String.utf8EncodeChar.eq_1, if_pos hpoint, hbyte,
        List.map_cons, List.singleton_append]

/-- The bytes of a character are its code point, or none of the first half of all
bytes. -/
theorem toNat_of_mem_utf8EncodeChar {character : Char} {byte : UInt8}
    (hbyte : byte ∈ String.utf8EncodeChar character) :
    byte.toNat = character.toNat ∨ 128 ≤ byte.toNat := by
  have hpoint : character.val.toNat = character.toNat := rfl
  rw [String.utf8EncodeChar.eq_1] at hbyte
  split at hbyte
  · left
    rw [List.mem_singleton] at hbyte
    rw [hbyte, UInt8.toNat_ofNat', hpoint]
    omega
  · right
    split_ifs at hbyte <;> simp only [List.mem_cons, List.not_mem_nil, or_false] at hbyte <;>
      rcases hbyte with rfl | rfl | rfl | rfl <;> rw [UInt8.toNat_ofNat'] <;> omega

/-! ## Escapes -/

variable {before rest : Bytes} {character : Char}

theorem readContent_backslash (before : Bytes) {bytes : Bytes} {length : Nat}
    (hescape : readEscape rest = .ok (bytes, length)) :
    readContent before ('\\'.toUInt8 :: rest) =
      readContent (bytes.reverse ++ before) (rest.drop length) := by
  have hquote : '\\'.toUInt8 ≠ '\"'.toUInt8 := by decide
  rw [readContent]
  simp only [hquote, if_false, if_true, hescape]

/-- Bytes that neither end a text nor start an escape are part of it. -/
theorem readContent_append {bytes : Bytes}
    (hplain : ∀ byte ∈ bytes, byte ≠ '\"'.toUInt8 ∧ byte ≠ '\\'.toUInt8 ∧ ¬ byte < 32) :
    readContent before (bytes ++ rest) = readContent (bytes.reverse ++ before) rest := by
  induction bytes generalizing before with
  | nil => rfl
  | cons byte bytes ih =>
      obtain ⟨hquote, hbackslash, hcontrol⟩ := hplain byte List.mem_cons_self
      have hlater := fun other hother => hplain other (List.mem_cons_of_mem _ hother)
      rw [List.cons_append, readContent, if_neg hquote, if_neg hbackslash, if_neg hcontrol,
        ih hlater, List.reverse_cons, List.append_assoc, List.singleton_append]

/-- A character that needs no escape has only such bytes. -/
theorem plain_of_mem_utf8EncodeChar (hquote : character ≠ '\"') (hbackslash : character ≠ '\\')
    (hcontrol : ¬ character.toNat < 32) :
    ∀ byte ∈ String.utf8EncodeChar character,
      byte ≠ '\"'.toUInt8 ∧ byte ≠ '\\'.toUInt8 ∧ ¬ byte < 32 := by
  intro byte hbyte
  have hpoint := toNat_of_mem_utf8EncodeChar hbyte
  refine ⟨?_, ?_, ?_⟩
  · rintro rfl
    exact hquote (Char.toNat_inj.mp (hpoint.resolve_right (by decide)).symm)
  · rintro rfl
    exact hbackslash (Char.toNat_inj.mp (hpoint.resolve_right (by decide)).symm)
  · intro hsmall
    have hbound : byte.toNat < 32 := hsmall
    omega

theorem digitValue?_lowerHexDigit :
    ∀ value < 16, (Text.lowerHexDigit value).toNat < 128 ∧
      digitValue? (Text.lowerHexDigit value).toUInt8 = some value := by
  decide

/-- A control character is read from its number. -/
theorem readContent_control (hcontrol : character.toNat < 32) :
    readContent before
        (bytesOf ['\\', 'u', '0', '0', Text.lowerHexDigit (character.toNat / 16),
          Text.lowerHexDigit (character.toNat % 16)] ++ rest) =
      readContent ((String.utf8EncodeChar character).reverse ++ before) rest := by
  obtain ⟨hhigh, hhighValue⟩ := digitValue?_lowerHexDigit (character.toNat / 16) (by omega)
  obtain ⟨hlow, hlowValue⟩ := digitValue?_lowerHexDigit (character.toNat % 16) (by omega)
  have hletter : Char.ofUInt8 'u'.toUInt8 = 'u' := by decide
  have hzero : digitValue? '0'.toUInt8 = some 0 := by decide
  have hnumber : character.toNat / 16 * 16 + character.toNat % 16 = character.toNat := by omega
  -- Control characters are far below the surrogates, so the number is complete.
  have hleading : isLeadingSurrogate character.toNat = false := by
    simp only [isLeadingSurrogate, Bool.and_eq_false_iff, decide_eq_false_iff_not]
    omega
  have htrailing : isTrailingSurrogate character.toNat = false := by
    simp only [isTrailingSurrogate, Bool.and_eq_false_iff, decide_eq_false_iff_not]
    omega
  have hbytes : encode (String.singleton character) = String.utf8EncodeChar character := by
    rw [String.singleton_eq_ofList, encode_ofList, bytesOf_cons, bytesOf_nil, List.append_nil]
  have hescape : readEscape ('u'.toUInt8 :: '0'.toUInt8 :: '0'.toUInt8 ::
      (Text.lowerHexDigit (character.toNat / 16)).toUInt8 ::
      (Text.lowerHexDigit (character.toNat % 16)).toUInt8 :: rest) =
        .ok (String.utf8EncodeChar character, 5) := by
    simp [readEscape, hletter, readNumericEscape, readQuad, hzero, hhighValue, hlowValue, hnumber,
      hleading, htrailing, hbytes]
  rw [bytesOf_eq_map (by simp [hhigh, hlow])]
  exact readContent_backslash before hescape

/-- A character with an escape of its own is read from the letter of the escape. -/
theorem readContent_letter {letter : Char} (hletter : letter.toNat < 128)
    (hescape : readEscape (letter.toUInt8 :: rest) = .ok (String.utf8EncodeChar character, 1)) :
    readContent before (bytesOf ['\\', letter] ++ rest) =
      readContent ((String.utf8EncodeChar character).reverse ++ before) rest := by
  rw [bytesOf_eq_map (by simp [hletter])]
  exact readContent_backslash before hescape

/-- Reading undoes the escaping of a character. -/
theorem readContent_escape :
    readContent before (bytesOf (escape character) ++ rest) =
      readContent ((String.utf8EncodeChar character).reverse ++ before) rest := by
  unfold escape
  split_ifs with hquote hbackslash hbackspace hfeed hline hreturn htab hcontrol
  · exact readContent_letter (by decide) (by rw [hquote]; rfl)
  · exact readContent_letter (by decide) (by rw [hbackslash]; rfl)
  · exact readContent_letter (by decide) (by rw [hbackspace]; rfl)
  · exact readContent_letter (by decide) (by rw [hfeed]; rfl)
  · exact readContent_letter (by decide) (by rw [hline]; rfl)
  · exact readContent_letter (by decide) (by rw [hreturn]; rfl)
  · exact readContent_letter (by decide) (by rw [htab]; rfl)
  · exact readContent_control hcontrol
  · rw [bytesOf_cons, bytesOf_nil, List.append_nil]
    exact readContent_append (plain_of_mem_utf8EncodeChar hquote hbackslash hcontrol)

/-! ## Texts -/

theorem readContent_escapes (characters : List Char) :
    readContent before (bytesOf (characters.flatMap escape) ++ rest) =
      readContent ((bytesOf characters).reverse ++ before) rest := by
  induction characters generalizing before with
  | nil => rfl
  | cons character characters ih =>
      rw [List.flatMap_cons, bytesOf_append, List.append_assoc, readContent_escape, ih,
        bytesOf_cons, List.reverse_append, List.append_assoc]

/-- Reading undoes the printing of a text, whatever comes after it. -/
theorem readQuoted_textWord (text : String) (rest : Bytes) :
    ∃ quoted, encode (textWord text) ++ rest = '\"'.toUInt8 :: quoted ∧
      readQuoted quoted = .ok (text, rest) := by
  have hquote : encode "\"" = ['\"'.toUInt8] := by decide
  have hcontent : readContent []
      (bytesOf (text.toList.flatMap escape) ++ '\"'.toUInt8 :: rest) =
        .ok (encode text, rest) := by
    rw [readContent_escapes, bytesOf_toList, List.append_nil, readContent, if_pos rfl,
      List.reverse_reverse]
  refine ⟨bytesOf (text.toList.flatMap escape) ++ '\"'.toUInt8 :: rest, ?_, ?_⟩
  · simp [textWord, hquote, encode_ofList]
  · simp [readQuoted, hcontent, Text.decode?_encode]

end FreightPromotion.Json
