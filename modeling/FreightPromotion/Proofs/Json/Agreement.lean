import FreightPromotion.Proofs.Json.Members

/-!
# Every reader agrees with passing over

A value that a reader finds ends where it is passed over, whatever the reader
expects there: a text, a flag, a list, a map, a record or a value of any shape.  So
the members of a document have the same places for all who read it.
-/

namespace FreightPromotion.Json

open FreightPromotion.Text (Bytes)

/-! ## Values without brackets -/

/-- A value without brackets that is read is passed over as a word. -/
theorem skipSimple_of_readSimple {byte : UInt8} {rest after : Bytes} {value : Value}
    (hread : readSimple byte rest = .ok (some value, after)) :
    skipSimple byte rest = .ok (none, after) := by
  unfold readSimple at hread
  split at hread
  case h_1 hletter | h_2 hletter | h_3 hletter =>
    obtain ⟨left, hleft, hpair⟩ := map_eq_ok_iff.mp hread
    cases hpair
    simp [skipSimple, hletter, hleft]
  case h_4 hletter =>
    obtain ⟨⟨number, left⟩, hnumber, hpair⟩ := map_eq_ok_iff.mp hread
    cases hpair
    simp [skipSimple, hletter, skipNumber_of_readNumber hnumber]
  case h_5 hletter =>
    obtain ⟨⟨text, left⟩, htext, hpair⟩ := map_eq_ok_iff.mp hread
    cases hpair
    simp [skipSimple, hletter, skipQuoted_of_readQuoted htext]
  case h_6 | h_7 =>
    cases hread
  case h_8 =>
    split at hread
    · rename_i hdigit
      obtain ⟨⟨number, left⟩, hnumber, hpair⟩ := map_eq_ok_iff.mp hread
      cases hpair
      simp_all [skipSimple, skipNumber_of_readNumber hnumber]
    · contradiction

theorem agrees_readText (nesting : Nat) : Agrees (readText nesting) := by
  intro input text after hread
  obtain ⟨byte, rest, hnext, hread⟩ := withNext_eq_ok_iff.mp hread
  split at hread
  · rename_i hquote
    subst hquote
    have hletter : Char.ofUInt8 '\"'.toUInt8 = '\"' := by decide
    exact passes_word hnext (by simp [skipSimple, hletter, skipQuoted_of_readQuoted hread])
  · contradiction

theorem agrees_readFlag (nesting : Nat) : Agrees (readFlag nesting) := by
  intro input flag after hread
  obtain ⟨byte, rest, hnext, hread⟩ := withNext_eq_ok_iff.mp hread
  split at hread
  · rename_i hbyte
    subst hbyte
    have hletter : Char.ofUInt8 't'.toUInt8 = 't' := by decide
    obtain ⟨left, hleft, hpair⟩ := map_eq_ok_iff.mp hread
    cases hpair
    exact passes_word hnext (by simp [skipSimple, hletter, hleft])
  · split at hread
    · rename_i hbyte
      subst hbyte
      have hletter : Char.ofUInt8 'f'.toUInt8 = 'f' := by decide
      obtain ⟨left, hleft, hpair⟩ := map_eq_ok_iff.mp hread
      cases hpair
      exact passes_word hnext (by simp [skipSimple, hletter, hleft])
    · contradiction

theorem agrees_readOptional {α : Type} {reader : Reader α} {nesting : Nat}
    (hreader : Agrees (reader nesting)) : Agrees (readOptional reader nesting) := by
  intro input value? after hread
  unfold readOptional at hread
  split at hread
  · rename_i hnext
    obtain ⟨⟨value, left⟩, hvalue, hpair⟩ := map_eq_ok_iff.mp hread
    cases hpair
    rw [← hnext] at hvalue
    exact passes_skipBlanks.mp (hreader hvalue)
  · rename_i byte rest hnext
    split at hread
    · rename_i hbyte
      subst hbyte
      have hletter : Char.ofUInt8 'n'.toUInt8 = 'n' := by decide
      obtain ⟨left, hleft, hpair⟩ := map_eq_ok_iff.mp hread
      cases hpair
      exact passes_word hnext (by simp [skipSimple, hletter, hleft])
    · obtain ⟨⟨value, left⟩, hvalue, hpair⟩ := map_eq_ok_iff.mp hread
      cases hpair
      rw [← hnext] at hvalue
      exact passes_skipBlanks.mp (hreader hvalue)

/-! ## Lists and maps -/

/-- Reading a list of values is reading each of its items. -/
theorem readList_eq_ok_iff {α : Type} {element : Reader α} {nesting : Nat}
    (helement : Agrees (element nesting)) {input after : Bytes} {values : List α} :
    readList element (nesting + 1) input = .ok (values, after) ↔
      ∃ rest items, skipBlanks input = '['.toUInt8 :: rest ∧ Items rest items after ∧
        Finds (element nesting) items values := by
  rw [readList, withNext_eq_ok_iff]
  constructor
  · rintro ⟨byte, rest, hnext, hread⟩
    split at hread
    · rename_i hopen
      subst hopen
      obtain ⟨inner, hinner, hread⟩ := bind_eq_ok_iff.mp hread
      cases hinner
      obtain ⟨items, hitems, hfinds⟩ := (readElements_eq_ok_iff helement).mp hread
      exact ⟨rest, items, hnext, hitems, hfinds⟩
    · contradiction
  · rintro ⟨rest, items, hopen, hitems, hfinds⟩
    have hread := (readElements_eq_ok_iff helement).mpr ⟨items, hitems, hfinds⟩
    exact ⟨_, rest, hopen, by simp [descend, hread]⟩

theorem agrees_readList {α : Type} {element : Reader α} (helement : ∀ nesting, Agrees (element nesting))
    (nesting : Nat) : Agrees (readList element nesting) := by
  intro input values after hread
  cases nesting with
  | zero =>
      obtain ⟨byte, rest, hnext, hread⟩ := withNext_eq_ok_iff.mp hread
      split at hread <;> contradiction
  | succ nesting =>
      obtain ⟨rest, items, hopen, hitems, -⟩ := (readList_eq_ok_iff (helement nesting)).mp hread
      exact passes_list hopen hitems

/-- An entry is taken up by entering what its value says. -/
theorem takes_readEntry {α : Type} {value : Bytes → Except Fault (α × Bytes)}
    (hvalue : Agrees value) :
    Takes (readEntry value) fun entries member =>
      (value member.2).toOption.map fun found => enter member.1 found.1 entries := by
  intro entries next key input after
  simp only [readEntry, bind_eq_ok_iff, Option.map_eq_some_iff, toOption_eq_some_iff]
  constructor
  · rintro ⟨inner, hcolon, ⟨found, left⟩, hread, hpair⟩
    cases hpair
    exact ⟨inner, hcolon, hvalue hread, (found, left), hread, rfl⟩
  · rintro ⟨inner, hcolon, hpasses, ⟨found, left⟩, hread, rfl⟩
    have hleft : left = after := (hvalue hread).unique hpasses
    exact ⟨inner, hcolon, (found, left), hread, by rw [hleft]⟩

theorem agrees_readTextMap (nesting : Nat) : Agrees (readTextMap nesting) := by
  intro input entries after hread
  obtain ⟨byte, rest, hnext, hread⟩ := withNext_eq_ok_iff.mp hread
  split at hread
  · rename_i hopen
    subst hopen
    obtain ⟨inner, -, hread⟩ := bind_eq_ok_iff.mp hread
    obtain ⟨members, hmembers, -⟩ :=
      (readMembers_eq_ok_iff (takes_readEntry (agrees_readText inner))).mp hread
    exact passes_object hnext hmembers
  · contradiction

/-! ## Values of any shape -/

theorem eq_toUInt8_of_ofUInt8_eq {byte : UInt8} {letter : Char}
    (hletter : Char.ofUInt8 byte = letter) : byte = letter.toUInt8 := by
  have hpoint : letter.val.toNat = byte.toNat := by
    rw [← hletter]
    exact byte.toNat_toUInt32
  refine UInt8.toNat_inj.mp ?_
  rw [Char.toUInt8, UInt32.toNat_toUInt8, hpoint]
  exact (Nat.mod_eq_of_lt byte.toNat_lt).symm

/-- What is not read as a word starts with a bracket. -/
theorem readSimple_eq_none {byte : UInt8} {rest after : Bytes}
    (hread : readSimple byte rest = .ok (none, after)) :
    byte = '['.toUInt8 ∨ byte = '\x7b'.toUInt8 := by
  unfold readSimple at hread
  split at hread
  case h_6 hletter => exact .inl (eq_toUInt8_of_ofUInt8_eq hletter)
  case h_7 hletter => exact .inr (eq_toUInt8_of_ofUInt8_eq hletter)
  case h_8 => split at hread <;> simp at hread
  all_goals simp at hread

/-- A value is a word, a list or an object, and the last two take a bracket. -/
theorem readValue_cases {nesting : Nat} {input after : Bytes} {value : Value}
    (hread : readValue nesting input = .ok (value, after)) :
    ∃ byte rest, skipBlanks input = byte :: rest ∧
      (readSimple byte rest = .ok (some value, after) ∨
        (∃ inner items, nesting = inner + 1 ∧ byte = '['.toUInt8 ∧ value = .array items ∧
          readElements (readValue inner) rest = .ok (items, after)) ∨
        ∃ inner members, nesting = inner + 1 ∧ byte = '\x7b'.toUInt8 ∧ value = .object members ∧
          readMembers (readEntry (readValue inner)) [] rest = .ok (members, after)) := by
  rw [readValue.eq_def] at hread
  obtain ⟨byte, rest, hnext, hread⟩ := withNext_eq_ok_iff.mp hread
  obtain ⟨⟨value?, left⟩, hsimple, hread⟩ := bind_eq_ok_iff.mp hread
  refine ⟨byte, rest, hnext, ?_⟩
  cases value? with
  | some found =>
      cases hread
      exact .inl hsimple
  | none =>
      cases nesting with
      | zero => contradiction
      | succ inner =>
          dsimp only at hread
          split at hread
          · rename_i hopen
            obtain ⟨⟨items, left⟩, hitems, hpair⟩ := map_eq_ok_iff.mp hread
            cases hpair
            exact .inr (.inl ⟨inner, items, rfl, hopen, rfl, hitems⟩)
          · rename_i hlist
            obtain ⟨⟨members, left⟩, hmembers, hpair⟩ := map_eq_ok_iff.mp hread
            cases hpair
            -- What is neither a word nor a list is an object.
            have hopen := (readSimple_eq_none hsimple).resolve_left hlist
            exact .inr (.inr ⟨inner, members, rfl, hopen, rfl, hmembers⟩)

theorem agrees_readValue (nesting : Nat) : Agrees (readValue nesting) := by
  induction nesting using Nat.strong_induction_on with
  | h nesting ih =>
      intro input value after hread
      obtain ⟨byte, rest, hnext, hsimple | ⟨inner, items, rfl, rfl, rfl, hitems⟩ |
        ⟨inner, members, rfl, rfl, rfl, hmembers⟩⟩ := readValue_cases hread
      · exact passes_word hnext (skipSimple_of_readSimple hsimple)
      · have hinner := ih inner (Nat.lt_succ_self inner)
        obtain ⟨items, hitems, -⟩ := (readElements_eq_ok_iff hinner).mp hitems
        exact passes_list hnext hitems
      · have hinner := ih inner (Nat.lt_succ_self inner)
        obtain ⟨members, hmembers, -⟩ :=
          (readMembers_eq_ok_iff (takes_readEntry hinner)).mp hmembers
        exact passes_object hnext hmembers

/-! ## Values that may be null -/

section Optional

variable {α : Type} {reader : Reader α} {nesting : Nat} {input after : Bytes}

/-- The next value of the input is null. -/
def IsNull (input after : Bytes) : Prop :=
  ∃ rest, skipBlanks input = 'n'.toUInt8 :: rest ∧
    readLetters ['u', 'l', 'l'] rest = .ok after

/-- The reader looks at the first byte that is not blank, and does not take null. -/
structure Solid (reader : Reader α) : Prop where
  blanks : ∀ nesting input, reader nesting (skipBlanks input) = reader nesting input
  null : ∀ ⦃nesting input rest result⦄, skipBlanks input = 'n'.toUInt8 :: rest →
    reader nesting input ≠ .ok result

/-- A value that may be null is present exactly when it can be read as such. -/
theorem readOptional_eq_some_iff (hsolid : Solid reader) {value : α} :
    readOptional reader nesting input = .ok (some value, after) ↔
      reader nesting input = .ok (value, after) := by
  rw [← hsolid.blanks nesting input]
  unfold readOptional
  split
  · rename_i hnext
    simp [hnext]
  · rename_i byte rest hnext
    split
    · rename_i hbyte
      subst hbyte
      have hnull : reader nesting (skipBlanks input) ≠ .ok (value, after) := by
        rw [hsolid.blanks]
        exact hsolid.null hnext
      simp [hnull]
    · simp [hnext]

theorem readOptional_eq_none_iff :
    readOptional reader nesting input = .ok (none, after) ↔ IsNull input after := by
  unfold readOptional IsNull
  split
  · rename_i hnext
    simp [hnext]
  · rename_i byte rest hnext
    split
    · rename_i hbyte
      simp [hnext, hbyte]
    · rename_i hbyte
      simp [hnext, hbyte]

theorem solid_of_withNext {next : Nat → UInt8 → Bytes → Except Fault (α × Bytes)}
    (hreader : ∀ nesting input, reader nesting input = withNext input (next nesting))
    (hnull : ∀ nesting rest result, next nesting 'n'.toUInt8 rest ≠ .ok result) : Solid reader where
  blanks nesting input := by
    rw [hreader, hreader, withNext, withNext, skipBlanks_skipBlanks]
  null := by
    intro nesting input rest result hnext
    rw [hreader, withNext, hnext]
    exact hnull nesting rest result

theorem solid_readText : Solid readText := by
  refine solid_of_withNext (fun _ _ => rfl) ?_
  intro nesting rest result
  have hquote : 'n'.toUInt8 ≠ '\"'.toUInt8 := by decide
  simp [hquote]

theorem solid_readList : Solid (readList reader) := by
  refine solid_of_withNext (fun _ _ => rfl) ?_
  intro nesting rest result
  have hlist : 'n'.toUInt8 ≠ '['.toUInt8 := by decide
  simp [hlist]

theorem solid_readRecord {name : String} {fields : List (Field α)} {blank : α} :
    Solid (readRecord name fields blank) := by
  refine solid_of_withNext (fun _ _ => rfl) ?_
  intro nesting rest result
  have hobject : 'n'.toUInt8 ≠ '\x7b'.toUInt8 := by decide
  have hlist : 'n'.toUInt8 ≠ '['.toUInt8 := by decide
  simp [hobject, hlist]

end Optional

end FreightPromotion.Json
