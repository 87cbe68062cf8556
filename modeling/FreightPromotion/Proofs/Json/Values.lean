import FreightPromotion.Proofs.Json.Arrangements

/-!
# Reading a printed value

A value of any shape that was read is read again from the text it is printed as, in either
arrangement (`Arrangement.reads_readable`), provided that it holds no fraction: it has its
members in the order of their keys, its integers fit, and its brackets were not too deep
(`Readable`, `readable_of_readValue`).

Texts, maps from texts to texts and values that may be null are read back likewise, where
a reader expects them.
-/

namespace FreightPromotion.Json

open FreightPromotion.Text (Bytes encode)

/-! ## Values of any shape -/

/-- The value holds no fraction. -/
inductive Whole : Value → Prop
  | null : Whole .null
  | bool (value : Bool) : Whole (.bool value)
  | integer (value : Int) : Whole (.number (.integer value))
  | text (text : String) : Whole (.text text)
  | array {items : List Value} (hitems : ∀ item ∈ items, Whole item) : Whole (.array items)
  | object {members : List Member} (hmembers : ∀ member ∈ members, Whole member.2) :
      Whole (.object members)

/-- The value can be read if so many brackets may be opened. -/
inductive Readable : Nat → Value → Prop
  | null {nesting : Nat} : Readable nesting .null
  | bool {nesting : Nat} (value : Bool) : Readable nesting (.bool value)
  | integer {nesting : Nat} {value : Int} (hrange : InRange value) :
      Readable nesting (.number (.integer value))
  | text {nesting : Nat} (text : String) : Readable nesting (.text text)
  | array {nesting : Nat} {items : List Value} (hitems : ∀ item ∈ items, Readable nesting item) :
      Readable (nesting + 1) (.array items)
  | object {nesting : Nat} {members : List Member} (hordered : Ascending members)
      (hmembers : ∀ member ∈ members, Readable nesting member.2) :
      Readable (nesting + 1) (.object members)

theorem Readable.mono {nesting more : Nat} {value : Value} (hreadable : Readable nesting value)
    (hmore : nesting ≤ more) : Readable more value := by
  induction hreadable generalizing more with
  | null => exact .null
  | bool value => exact .bool value
  | integer hrange => exact .integer hrange
  | text text => exact .text text
  | array hitems ih =>
      obtain ⟨more, rfl⟩ := Nat.exists_eq_add_of_le' hmore
      exact .array fun item hitem => ih item hitem (Nat.le_add_left _ _)
  | object hordered hmembers ih =>
      obtain ⟨more, rfl⟩ := Nat.exists_eq_add_of_le' hmore
      exact .object hordered fun member hmember => ih member hmember (Nat.le_add_left _ _)

section Values

variable {nesting depth : Nat} {input after rest : Bytes} {value : Value}

theorem readValue_skipBlanks (nesting : Nat) (input : Bytes) :
    readValue nesting (skipBlanks input) = readValue nesting input := by
  cases nesting <;> simp only [readValue, withNext_skipBlanks]

theorem regular_readValue (nesting : Nat) : Regular (readValue nesting) where
  blanks := readValue_skipBlanks nesting
  agrees := agrees_readValue nesting

/-- A value without brackets is read at its first byte. -/
theorem readValue_of_readSimple {byte : UInt8} (hblank : isBlank byte = false)
    (hsimple : readSimple byte rest = .ok (some value, after)) :
    readValue nesting (byte :: rest) = .ok (value, after) := by
  cases nesting <;>
    simp [readValue, withNext, skipBlanks_of_not_blank hblank, hsimple, bind, Except.bind]

theorem readValue_list (nesting : Nat) (inner : Bytes) :
    readValue (nesting + 1) ('['.toUInt8 :: inner) =
      (readElements (readValue nesting) inner).map fun (items, after) =>
        (.array items, after) := by
  have hblank : isBlank '['.toUInt8 = false := by decide
  have hletter : Char.ofUInt8 '['.toUInt8 = '[' := by decide
  simp [readValue, withNext, skipBlanks_of_not_blank hblank, readSimple, hletter, bind,
    Except.bind]

theorem readValue_object (nesting : Nat) (inner : Bytes) :
    readValue (nesting + 1) ('\x7b'.toUInt8 :: inner) =
      (readMembers (readEntry (readValue nesting)) [] inner).map fun (members, after) =>
        (.object members, after) := by
  have hblank : isBlank '\x7b'.toUInt8 = false := by decide
  have hletter : Char.ofUInt8 '\x7b'.toUInt8 = '\x7b' := by decide
  have hbrackets : '\x7b'.toUInt8 ≠ '['.toUInt8 := by decide
  simp [readValue, withNext, skipBlanks_of_not_blank hblank, readSimple, hletter, hbrackets, bind,
    Except.bind]

/-! ### Reading what was printed -/

section Printed

variable {arrangement : Arrangement}

/-- A word is read back if it is read at its first byte. -/
theorem Arrangement.reads_word (hword : value.IsWord)
    (hsimple : ∀ ⦃rest⦄, EndsNumber rest → ∃ byte inner,
      encode (word value) ++ rest = byte :: inner ∧ isBlank byte = false ∧
        readSimple byte inner = .ok (some value, rest)) :
    arrangement.Reads (readValue nesting) depth value value := by
  intro rest hrest
  obtain ⟨byte, inner, hspelling, hblank, hread⟩ := hsimple (arrangement.endsNumber hrest)
  rw [arrangement.text_word depth hword, hspelling]
  exact readValue_of_readSimple hblank hread

theorem Arrangement.reads_null : arrangement.Reads (readValue nesting) depth .null .null := by
  have hword : encode (word .null) = ['n'.toUInt8, 'u'.toUInt8, 'l'.toUInt8, 'l'.toUInt8] := by
    decide
  have hletter : Char.ofUInt8 'n'.toUInt8 = 'n' := by decide
  refine arrangement.reads_word trivial fun rest _ => ?_
  exact ⟨_, _, by rw [hword]; rfl, by decide, by simp [readSimple, hletter, readLetters, Except.map]⟩

theorem Arrangement.reads_bool (flag : Bool) :
    arrangement.Reads (readValue nesting) depth (.bool flag) (.bool flag) := by
  refine arrangement.reads_word trivial fun rest _ => ?_
  cases flag with
  | false =>
      have hword : encode (word (.bool false)) =
          ['f'.toUInt8, 'a'.toUInt8, 'l'.toUInt8, 's'.toUInt8, 'e'.toUInt8] := by decide
      have hletter : Char.ofUInt8 'f'.toUInt8 = 'f' := by decide
      exact ⟨_, _, by rw [hword]; rfl, by decide,
        by simp [readSimple, hletter, readLetters, Except.map]⟩
  | true =>
      have hword : encode (word (.bool true)) =
          ['t'.toUInt8, 'r'.toUInt8, 'u'.toUInt8, 'e'.toUInt8] := by decide
      have hletter : Char.ofUInt8 't'.toUInt8 = 't' := by decide
      exact ⟨_, _, by rw [hword]; rfl, by decide,
        by simp [readSimple, hletter, readLetters, Except.map]⟩

theorem Arrangement.reads_integer {number : Int} (hrange : InRange number) :
    arrangement.Reads (readValue nesting) depth (.number (.integer number))
      (.number (.integer number)) :=
  arrangement.reads_word trivial fun _ hrest => readSimple_integer hrange hrest

theorem Arrangement.reads_text (text : String) :
    arrangement.Reads (readValue nesting) depth (.text text) (.text text) := by
  refine arrangement.reads_word trivial fun rest _ => ?_
  have hletter : Char.ofUInt8 '\"'.toUInt8 = '\"' := by decide
  obtain ⟨quoted, hquoted, hread⟩ := readQuoted_textWord text rest
  exact ⟨_, quoted, hquoted, by decide, by simp [readSimple, hletter, hread, Except.map]⟩

theorem Arrangement.reads_array {items values : List Value}
    (hitems : List.Forall₂ (arrangement.Reads (readValue nesting) (depth + 1)) items values) :
    arrangement.Reads (readValue (nesting + 1)) depth (.array items) (.array values) := by
  intro rest _
  obtain ⟨inner, hspelling, hread⟩ :=
    arrangement.readElements_printed rest (regular_readValue nesting) hitems
  rw [hspelling, readValue_list, hread]
  rfl

theorem Arrangement.reads_object {members entries : List Member}
    (hentries : arrangement.ReadsEntries (readValue nesting) (depth + 1) members entries) :
    arrangement.Reads (readValue (nesting + 1)) depth (.object members)
      (.object (entered entries)) := by
  intro rest _
  obtain ⟨inner, hspelling, hread⟩ :=
    arrangement.readMembers_printed rest (regular_readValue nesting) hentries
  rw [hspelling, readValue_object, hread]
  rfl

/-- A value that can be read is read back where it is printed. -/
theorem Arrangement.reads_readable (hreadable : Readable nesting value) :
    arrangement.Reads (readValue nesting) depth value value := by
  induction hreadable generalizing depth with
  | null => exact arrangement.reads_null
  | bool flag => exact arrangement.reads_bool flag
  | integer hrange => exact arrangement.reads_integer hrange
  | text text => exact arrangement.reads_text text
  | array hitems ih =>
      exact arrangement.reads_array (List.forall₂_same.mpr fun item hitem => ih item hitem)
  | @object nesting members hordered hmembers ih =>
      have hentries : arrangement.ReadsEntries (readValue nesting) (depth + 1) members members :=
        List.forall₂_same.mpr fun member hmember => ⟨rfl, ih member hmember⟩
      have hread := arrangement.reads_object hentries
      rwa [entered_of_ascending hordered] at hread

end Printed

/-! ### What is read -/

/-- The entries of an object are in order, and each value was read from some input. -/
theorem ascending_of_readMembers {α : Type} {read : Bytes → Except Fault (α × Bytes)}
    (hagrees : Agrees read) {entries : List (String × α)}
    (hread : readMembers (readEntry read) [] input = .ok (entries, after)) :
    Ascending entries ∧ ∀ entry ∈ entries, ∃ input after, read input = .ok (entry.2, after) := by
  obtain ⟨given, -, hfold⟩ := (readMembers_eq_ok_iff (takes_readEntry hagrees)).mp hread
  obtain ⟨found, hfound, rfl⟩ := foldlM_enter_eq_some_iff.mp hfold
  have hvalues : ∀ entry ∈ found, ∃ input after, read input = .ok (entry.2, after) :=
    forall_of_forall₂ (List.Forall₂.flip hfound) fun _ member hmember => ⟨member.2, hmember.2⟩
  exact ⟨ascending_entered found, fun entry hentry => hvalues entry (mem_of_mem_entered hentry)⟩

theorem readable_of_readNumber {positive : Bool} {number : Number}
    (hread : readNumber positive input = .ok (number, after)) (hwhole : Whole (.number number)) :
    Readable nesting (.number number) := by
  cases hwhole with
  | integer value => exact .integer (fits_of_readNumber hread)

theorem readable_of_readSimple {byte : UInt8}
    (hread : readSimple byte rest = .ok (some value, after)) (hwhole : Whole value) :
    Readable nesting value := by
  unfold readSimple at hread
  split at hread
  case h_1 =>
    obtain ⟨left, -, hpair⟩ := map_eq_ok_iff.mp hread
    cases hpair
    exact .null
  case h_2 | h_3 =>
    obtain ⟨left, -, hpair⟩ := map_eq_ok_iff.mp hread
    cases hpair
    exact .bool _
  case h_4 =>
    obtain ⟨⟨number, left⟩, hdigits, hpair⟩ := map_eq_ok_iff.mp hread
    cases hpair
    exact readable_of_readNumber hdigits hwhole
  case h_5 =>
    obtain ⟨⟨text, left⟩, -, hpair⟩ := map_eq_ok_iff.mp hread
    cases hpair
    exact .text text
  case h_6 | h_7 => cases hread
  case h_8 =>
    split at hread
    · obtain ⟨⟨number, left⟩, hdigits, hpair⟩ := map_eq_ok_iff.mp hread
      cases hpair
      exact readable_of_readNumber hdigits hwhole
    · contradiction

/-- A value without fractions that was read can be read. -/
theorem readable_of_readValue (hread : readValue nesting input = .ok (value, after))
    (hwhole : Whole value) : Readable nesting value := by
  induction nesting using Nat.strong_induction_on generalizing input after value with
  | h nesting ih =>
      obtain ⟨byte, rest, -, hsimple | ⟨inner, values, rfl, -, rfl, hvalues⟩ |
        ⟨inner, members, rfl, -, rfl, hmembers⟩⟩ := readValue_cases hread
      · exact readable_of_readSimple hsimple hwhole
      · obtain ⟨items, -, hfinds⟩ := (readElements_eq_ok_iff (agrees_readValue inner)).mp hvalues
        cases hwhole with
        | array hwhole =>
            have hread : ∀ item ∈ values, ∃ input after,
                readValue inner input = .ok (item, after) :=
              forall_of_forall₂ (List.Forall₂.flip hfinds) fun _ input hfound => ⟨input, hfound⟩
            refine .array fun item hitem => ?_
            obtain ⟨input, after, hread⟩ := hread item hitem
            exact ih inner (Nat.lt_succ_self inner) hread (hwhole item hitem)
      · obtain ⟨hordered, hread⟩ := ascending_of_readMembers (agrees_readValue inner) hmembers
        cases hwhole with
        | object hwhole =>
            refine .object hordered fun member hmember => ?_
            obtain ⟨input, after, hread⟩ := hread member hmember
            exact ih inner (Nat.lt_succ_self inner) hread (hwhole member hmember)

end Values

/-! ## Texts, maps and values that may be null -/

section Shapes

variable {arrangement : Arrangement} {nesting depth : Nat}

theorem regular_readText (nesting : Nat) : Regular (readText nesting) where
  blanks := solid_readText.blanks nesting
  agrees := agrees_readText nesting

theorem Arrangement.reads_readText (text : String) :
    arrangement.Reads (readText nesting) depth (.text text) text := by
  intro rest _
  obtain ⟨quoted, hquoted, hread⟩ := readQuoted_textWord text rest
  have hblank : isBlank '\"'.toUInt8 = false := by decide
  have hword : (Value.text text).IsWord := trivial
  rw [arrangement.text_word depth hword, word, hquoted, readText, withNext,
    skipBlanks_of_not_blank hblank]
  simp [hread]

theorem Arrangement.ends_text (text : String) : arrangement.Ends depth (.text text) := by
  have hreads : arrangement.Reads (readText 0) depth (.text text) text :=
    arrangement.reads_readText text
  exact hreads.ends (regular_readText 0)

theorem regular_readFlag (nesting : Nat) : Regular (readFlag nesting) where
  blanks input := by simp only [readFlag, withNext_skipBlanks]
  agrees := agrees_readFlag nesting

/-- A flag that is set is read where it was printed. -/
theorem Arrangement.reads_readFlag :
    arrangement.Reads (readFlag nesting) depth (.bool true) true := by
  intro rest _
  have hbytes : encode (word (.bool true)) =
      ['t'.toUInt8, 'r'.toUInt8, 'u'.toUInt8, 'e'.toUInt8] := by decide
  have hblank : isBlank 't'.toUInt8 = false := by decide
  have hword : (Value.bool true).IsWord := trivial
  rw [arrangement.text_word depth hword, hbytes, List.cons_append, readFlag, withNext,
    skipBlanks_of_not_blank hblank]
  simp [readLetters]

theorem Arrangement.ends_null : arrangement.Ends depth .null := by
  have hreads : arrangement.Reads (readValue 0) depth .null .null := arrangement.reads_null
  exact hreads.ends (regular_readValue 0)

theorem regular_readTextMap (nesting : Nat) : Regular (readTextMap nesting) where
  blanks input := by simp only [readTextMap, withNext_skipBlanks]
  agrees := agrees_readTextMap nesting

/-- A map in order is read back from the object of its entries. -/
theorem Arrangement.reads_readTextMap {entries : List (String × String)}
    (hordered : Ascending entries) :
    arrangement.Reads (readTextMap (nesting + 1)) depth
      (.object (entries.map fun (name, text) => (name, .text text))) entries := by
  intro rest _
  have hentries : arrangement.ReadsEntries (readText nesting) (depth + 1)
      (entries.map fun (name, text) => (name, .text text)) entries :=
    List.forall₂_map_left_iff.mpr
      (List.forall₂_same.mpr fun entry _ => ⟨rfl, arrangement.reads_readText entry.2⟩)
  have hblank : isBlank '\x7b'.toUInt8 = false := by decide
  obtain ⟨inner, hspelling, hread⟩ :=
    arrangement.readMembers_printed rest (regular_readText nesting) hentries
  rw [entered_of_ascending hordered] at hread
  simp [hspelling, readTextMap, withNext, skipBlanks_of_not_blank hblank, descend, hread, bind,
    Except.bind]

theorem ascending_of_readTextMap {entries : List (String × String)} {input after : Bytes}
    (hread : readTextMap nesting input = .ok (entries, after)) : Ascending entries := by
  obtain ⟨byte, rest, -, hread⟩ := withNext_eq_ok_iff.mp hread
  split at hread
  · obtain ⟨inner, -, hread⟩ := bind_eq_ok_iff.mp hread
    exact (ascending_of_readMembers (agrees_readText inner) hread).1
  · contradiction

theorem regular_readOptional {α : Type} {reader : Reader α} (hregular : Regular (reader nesting)) :
    Regular (readOptional reader nesting) where
  blanks input := by simp only [readOptional, skipBlanks_skipBlanks]
  agrees := agrees_readOptional hregular.agrees

/-- A text is read back where null would be allowed. -/
theorem Arrangement.reads_optionalText (text : String) :
    arrangement.Reads (readOptional readText nesting) depth (.text text) (some text) :=
  fun _ hrest =>
    (readOptional_eq_some_iff solid_readText).mpr (arrangement.reads_readText text hrest)

theorem eq_null_iff_of_readSimple {byte : UInt8} {rest after : Bytes} {value : Value}
    (hread : readSimple byte rest = .ok (some value, after)) :
    value = .null ↔ byte = 'n'.toUInt8 := by
  have hn : Char.ofUInt8 'n'.toUInt8 = 'n' := by decide
  by_cases hbyte : byte = 'n'.toUInt8
  · subst hbyte
    simp only [readSimple, hn, map_eq_ok_iff] at hread
    obtain ⟨left, -, hpair⟩ := hread
    cases hpair
    simp
  · -- Without its first letter, there is no null.
    unfold readSimple at hread
    split at hread
    case h_1 hletter => exact absurd (eq_toUInt8_of_ofUInt8_eq hletter) hbyte
    case h_2 | h_3 | h_4 | h_5 =>
      obtain ⟨found, -, hpair⟩ := map_eq_ok_iff.mp hread
      cases hpair
      simp [hbyte]
    case h_6 | h_7 => cases hread
    case h_8 =>
      split at hread
      · obtain ⟨found, -, hpair⟩ := map_eq_ok_iff.mp hread
        cases hpair
        simp [hbyte]
      · contradiction

theorem eq_null_iff_of_readValue {byte : UInt8} {input rest after : Bytes} {value : Value}
    (hnext : skipBlanks input = byte :: rest)
    (hread : readValue nesting input = .ok (value, after)) :
    value = .null ↔ byte = 'n'.toUInt8 := by
  obtain ⟨first, more, hfirst, hcases⟩ := readValue_cases hread
  rw [hnext] at hfirst
  cases hfirst
  rcases hcases with hsimple | ⟨inner, items, -, rfl, rfl, -⟩ | ⟨inner, members, -, rfl, rfl, -⟩
  · exact eq_null_iff_of_readSimple hsimple
  · exact iff_of_false nofun (by decide)
  · exact iff_of_false nofun (by decide)

theorem readValue_of_isNull (nesting : Nat) {input after : Bytes} (hnull : IsNull input after) :
    readValue nesting input = .ok (.null, after) := by
  obtain ⟨rest, hnext, hletters⟩ := hnull
  have hletter : Char.ofUInt8 'n'.toUInt8 = 'n' := by decide
  rw [← readValue_skipBlanks, hnext]
  exact readValue_of_readSimple (by decide) (by simp [readSimple, hletter, hletters, Except.map])

/-- A value of any shape is present where null would be allowed exactly if it is not null. -/
theorem readOptional_readValue_eq_some_iff {input after : Bytes} {value : Value} :
    readOptional readValue nesting input = .ok (some value, after) ↔
      readValue nesting input = .ok (value, after) ∧ value ≠ .null := by
  rw [← readValue_skipBlanks nesting input]
  unfold readOptional
  cases hnext : skipBlanks input with
  | nil =>
      have hnone : readValue nesting [] ≠ .ok (value, after) := by
        intro hread
        obtain ⟨byte, rest, hnext, -⟩ := readValue_cases hread
        cases hnext
      simp [hnone]
  | cons byte rest =>
      have hnull : readValue nesting (byte :: rest) = .ok (value, after) →
          (value = .null ↔ byte = 'n'.toUInt8) := by
        intro hread
        rw [← hnext, readValue_skipBlanks] at hread
        exact eq_null_iff_of_readValue hnext hread
      dsimp only
      split_ifs with hbyte
      · simp only [map_eq_ok_iff]
        constructor
        · rintro ⟨left, -, hpair⟩
          cases hpair
        · rintro ⟨hread, hvalue⟩
          exact absurd ((hnull hread).mpr hbyte) hvalue
      · simp only [map_eq_ok_iff]
        constructor
        · rintro ⟨⟨found, left⟩, hread, hpair⟩
          cases hpair
          exact ⟨hread, mt (hnull hread).mp hbyte⟩
        · rintro ⟨hread, -⟩
          exact ⟨(value, after), hread, rfl⟩

end Shapes

end FreightPromotion.Json
