import FreightPromotion.Proofs.Json.Denotation
import FreightPromotion.Proofs.Json.Integers
import FreightPromotion.Proofs.Json.Values

/-!
# Values that carry data

A value that is read from a document carries what the document denotes (`Denotes.isCarried`), and it
is printed as a document that denotes what it carries (`Carries.shows`), in either arrangement.
Between the two, the order of the members, the blanks and the escapes may change, and an integer
becomes what it is carried as.
-/

namespace FreightPromotion.Json

open FreightPromotion.Text (Bytes encode)

/-! ## Values that carry data -/

/-- The value has this datum, its numbers standing for those of the datum, and its objects have
their members in the order of the keys. -/
inductive Carries {ν : Type} (stands : Number → ν → Prop) : Value → Datum ν → Prop
  | null : Carries stands .null .null
  | bool (flag : Bool) : Carries stands (.bool flag) (.bool flag)
  | number {number : Number} {value : ν} (hstands : stands number value) :
      Carries stands (.number number) (.number value)
  | text (text : String) : Carries stands (.text text) (.text text)
  | array {values : List Value} {data : List (Datum ν)} (hlength : values.length = data.length)
      (hdata : ∀ pair ∈ values.zip data, Carries stands pair.1 pair.2) :
      Carries stands (.array values) (.array data)
  | object {members : List Member} {entries : List (String × Datum ν)}
      (hordered : Ascending members) (hkeys : members.map Prod.fst = entries.map Prod.fst)
      (hentries : ∀ pair ∈ members.zip entries, Carries stands pair.1.2 pair.2.2) :
      Carries stands (.object members) (.object entries)

section Carries

variable {ν : Type} {stands : Number → ν → Prop}

theorem Carries.of_forall₂ {values : List Value} {data : List (Datum ν)}
    (hdata : List.Forall₂ (Carries stands) values data) :
    Carries stands (.array values) (.array data) :=
  .array hdata.length_eq fun _ hpair => List.forall₂_zip hdata hpair

theorem Carries.of_matches {members : List Member} {entries : List (String × Datum ν)}
    (hordered : Ascending members) (hmatches : Matches (Carries stands) members entries) :
    Carries stands (.object members) (.object entries) :=
  .object hordered (matches_iff.mp hmatches).1 (matches_iff.mp hmatches).2

end Carries

/-- The number is printed as a numeral for this one. -/
def Number.HasValue (number : Number) (value : ℚ) : Prop :=
  number.value = value

/-- The number is this integer. -/
def Number.IsInteger (number : Number) (value : Int) : Prop :=
  number = .integer value

/-! ### What is read -/

section Reading

variable {nesting : Nat} {input rest after : Bytes} {value : Value}

/-- What starts with no bracket is read as a word. -/
theorem readSimple_of_readValue {byte : UInt8}
    (hread : readValue nesting input = .ok (value, after)) (hnext : skipBlanks input = byte :: rest)
    (hlist : byte ≠ '['.toUInt8) (hobject : byte ≠ '{'.toUInt8) :
    readSimple byte rest = .ok (some value, after) := by
  obtain ⟨first, others, hfirst, hsimple | ⟨_, _, _, hbyte, _⟩ | ⟨_, _, _, hbyte, _⟩⟩ :=
    readValue_cases hread
  · rw [hnext] at hfirst
    cases hfirst
    exact hsimple
  · exact absurd ((List.cons.inj (hnext.symm.trans hfirst)).1.trans hbyte) hlist
  · exact absurd ((List.cons.inj (hnext.symm.trans hfirst)).1.trans hbyte) hobject

theorem value_of_bool {flag : Bool} (hread : readValue nesting input = .ok (value, after))
    (hword : skipBlanks input = encode (if flag then "true" else "false") ++ rest) :
    value = .bool flag := by
  cases flag with
  | false =>
      have hletters : encode "false" = 'f'.toUInt8 :: encode "alse" := by decide
      have hletter : Char.ofUInt8 'f'.toUInt8 = 'f' := by decide
      simp only [Bool.false_eq_true, if_false, hletters, List.cons_append] at hword
      have hsimple := readSimple_of_readValue hread hword (by decide) (by decide)
      simp only [readSimple, hletter] at hsimple
      obtain ⟨left, -, hpair⟩ := map_eq_ok_iff.mp hsimple
      cases hpair
      rfl
  | true =>
      have hletters : encode "true" = 't'.toUInt8 :: encode "rue" := by decide
      have hletter : Char.ofUInt8 't'.toUInt8 = 't' := by decide
      simp only [if_true, hletters, List.cons_append] at hword
      have hsimple := readSimple_of_readValue hread hword (by decide) (by decide)
      simp only [readSimple, hletter] at hsimple
      obtain ⟨left, -, hpair⟩ := map_eq_ok_iff.mp hsimple
      cases hpair
      rfl

theorem value_of_isText {text : String} (hread : readValue nesting input = .ok (value, after))
    (htext : IsText input text) : value = .text text := by
  obtain ⟨left, htext⟩ := htext
  obtain ⟨byte, rest, hnext, htext⟩ := withNext_eq_ok_iff.mp htext
  split at htext
  · rename_i hbyte
    subst hbyte
    have hletter : Char.ofUInt8 '\"'.toUInt8 = '\"' := by decide
    have hsimple := readSimple_of_readValue hread hnext (by decide) (by decide)
    simp only [readSimple, hletter, htext] at hsimple
    cases hsimple
    rfl
  · contradiction

/-- A list is read from the input at which its items are due. -/
theorem finds_of_readValue {items : List Bytes}
    (hread : readValue nesting input = .ok (value, after))
    (hopen : skipBlanks input = '['.toUInt8 :: rest) {beyond : Bytes}
    (hitems : Items rest items beyond) :
    ∃ inner values, value = .array values ∧ Finds (readValue inner) items values := by
  obtain ⟨byte, others, hnext, hcases⟩ := readValue_cases hread
  obtain ⟨rfl, rfl⟩ := List.cons.inj (hopen.symm.trans hnext)
  have hletter : Char.ofUInt8 '['.toUInt8 = '[' := by decide
  rcases hcases with hsimple | ⟨inner, values, -, -, rfl, hvalues⟩ | ⟨_, _, -, hbyte, -⟩
  · simp [readSimple, hletter] at hsimple
  · obtain ⟨items', hitems', hfinds⟩ := (readElements_eq_ok_iff (agrees_readValue inner)).mp hvalues
    obtain ⟨rfl, -⟩ := hitems.unique hitems'
    exact ⟨inner, values, rfl, hfinds⟩
  · exact absurd hbyte (by decide)

/-- An object is read from the input at which the values of its members are due. -/
theorem matches_of_readValue {members : List (String × Bytes)}
    (hread : readValue nesting input = .ok (value, after))
    (hopen : skipBlanks input = '\x7b'.toUInt8 :: rest) {beyond : Bytes}
    (hmembers : Members rest members beyond) :
    ∃ inner found, value = .object (entered found) ∧
      Matches (fun input value => ∃ left, readValue inner input = .ok (value, left)) members
        found := by
  obtain ⟨byte, others, hnext, hcases⟩ := readValue_cases hread
  obtain ⟨rfl, rfl⟩ := List.cons.inj (hopen.symm.trans hnext)
  have hletter : Char.ofUInt8 '\x7b'.toUInt8 = '\x7b' := by decide
  rcases hcases with hsimple | ⟨_, _, -, hbyte, -⟩ | ⟨inner, entries, -, -, rfl, hentries⟩
  · simp [readSimple, hletter] at hsimple
  · exact absurd hbyte (by decide)
  · obtain ⟨members', hmembers', hfold⟩ :=
      (readMembers_eq_ok_iff (takes_readEntry (agrees_readValue inner))).mp hentries
    obtain ⟨rfl, -⟩ := hmembers.unique hmembers'
    obtain ⟨found, hfound, rfl⟩ := foldlM_enter_eq_some_iff.mp hfold
    exact ⟨inner, found, rfl, hfound⟩

/-- Whatever value is read here carries the datum, with each integer as it is carried. -/
def IsCarried (input : Bytes) (datum : Datum Int) : Prop :=
  ∀ ⦃nesting value after⦄, readValue nesting input = .ok (value, after) →
    Carries Number.HasValue value (datum.map carried)

/-- A value that is read from a document carries what the document denotes. -/
theorem Denotes.isCarried {datum : Datum Int} (hdenotes : Denotes IntegerAt input datum) :
    IsCarried input datum := by
  intro nesting value after hread
  induction hdenotes generalizing nesting value after with
  | null hword =>
      have hletters : encode "null" = 'n'.toUInt8 :: encode "ull" := by decide
      rw [hletters, List.cons_append] at hword
      rw [(eq_null_iff_of_readValue hword hread).mpr rfl]
      exact .null
  | bool hword =>
      rw [value_of_bool hread hword]
      exact .bool _
  | number hinteger =>
      obtain ⟨byte, rest, hnext, hbyte, -⟩ := hinteger.numeralAt.exists_cons
      have hbracket : byte ≠ '['.toUInt8 ∧ byte ≠ '\x7b'.toUInt8 := by
        constructor <;> rintro rfl <;> exact absurd hbyte (by decide)
      have hsimple := readSimple_of_readValue hread hnext hbracket.1 hbracket.2
      obtain ⟨number, hfound, hnumber⟩ := hinteger.value_of_readSimple hnext hsimple
      cases hfound
      exact .number hnumber
  | text htext =>
      rw [value_of_isText hread htext]
      exact .text _
  | @array _ _ _ items data hopen hitems hlength hdata ih =>
      obtain ⟨inner, values, rfl, hfinds⟩ := finds_of_readValue hread hopen hitems
      have hcarried : List.Forall₂ IsCarried items data :=
        List.forall₂_iff_zip.mpr ⟨hlength, fun hpair _ _ _ hread => ih _ hpair hread⟩
      rw [Datum.map, mapItems_eq]
      refine .of_forall₂ (List.forall₂_map_right_iff.mpr ?_)
      exact forall₂_combine hfinds hcarried fun _ _ _ hread hcarried =>
        hread.elim fun _ hread => hcarried hread
  | @object _ _ _ members entries hopen hmembers hdistinct hkeys hentries ih =>
      obtain ⟨inner, found, rfl, hfound⟩ := matches_of_readValue hread hopen hmembers
      have hcarried : Matches IsCarried members entries :=
        matches_iff.mpr ⟨hkeys, fun pair hpair _ _ _ hread => ih pair hpair hread⟩
      have hmatches : Matches
          (fun value (datum : Datum Int) => Carries Number.HasValue value (datum.map carried))
          found entries :=
        hfound.combine hcarried fun _ _ _ hread hcarried =>
          hread.elim fun _ hread => hcarried hread
      rw [Datum.map, mapEntries_eq]
      exact .of_matches (ascending_entered found) (List.forall₂_map_right_iff.mpr hmatches.entered)

end Reading

/-! ### What is printed -/

section Printing

/-- Where a number is printed, a numeral denotes what it stands for. -/
def Spells {ν : Type} (numeral : Bytes → ν → Bytes → Prop) (stands : Number → ν → Prop) : Prop :=
  ∀ ⦃number value⦄, stands number value → ∀ ⦃rest⦄, EndsNumber rest →
    numeral (encode (number.text layout) ++ rest) value rest

theorem spells_hasValue : Spells NumeralAt Number.HasValue := by
  rintro number value rfl rest hrest
  exact number.numeralAt layout hrest

theorem spells_isInteger : Spells IntegerAt Number.IsInteger := by
  rintro number value rfl rest hrest
  exact integerAt_integer value layout hrest

/-- Where the value is printed, it ends and denotes the datum. -/
structure Arrangement.Shows {ν : Type} (arrangement : Arrangement)
    (numeral : Bytes → ν → Bytes → Prop) (value : Value) (datum : Datum ν) : Prop where
  ends : ∀ depth, arrangement.Ends depth value
  denotes : ∀ ⦃depth rest⦄, arrangement.Closes rest →
    Denotes numeral (encode (arrangement.text depth value) ++ rest) datum

variable {arrangement : Arrangement} {ν : Type} {numeral : Bytes → ν → Bytes → Prop}

theorem Arrangement.Shows.of_dueAt {value : Value} {datum : Datum ν} {depth : Nat} {input : Bytes}
    (hshows : arrangement.Shows numeral value datum) (hdue : arrangement.DueAt depth value input) :
    Denotes numeral input datum := by
  obtain ⟨beyond, hbeyond, hinput⟩ := hdue
  exact (hshows.denotes hbeyond).congr hinput.symm

theorem Arrangement.shows_null : arrangement.Shows numeral .null .null where
  ends _ := arrangement.ends_null
  denotes depth rest _ := by
    have hletters : encode "null" = 'n'.toUInt8 :: encode "ull" := by decide
    have hword : Value.null.IsWord := trivial
    rw [arrangement.text_word depth hword, word]
    have hstarts : skipBlanks (encode "null" ++ rest) = encode "null" ++ rest := by
      rw [hletters]
      exact skipBlanks_of_not_blank (by decide)
    exact .null hstarts

theorem Arrangement.shows_bool (flag : Bool) :
    arrangement.Shows numeral (.bool flag) (.bool flag) where
  ends depth := by
    have hreads : arrangement.Reads (readValue 0) depth (.bool flag) (.bool flag) :=
      arrangement.reads_bool flag
    exact hreads.ends (regular_readValue 0)
  denotes depth rest _ := by
    have htrue : encode "true" = 't'.toUInt8 :: encode "rue" := by decide
    have hfalse : encode "false" = 'f'.toUInt8 :: encode "alse" := by decide
    have hword : (Value.bool flag).IsWord := trivial
    rw [arrangement.text_word depth hword, word]
    have hstarts : skipBlanks (encode (if flag then "true" else "false") ++ rest) =
        encode (if flag then "true" else "false") ++ rest := by
      cases flag with
      | false =>
          rw [if_neg (by decide), hfalse]
          exact skipBlanks_of_not_blank (by decide)
      | true =>
          rw [if_pos rfl, htrue]
          exact skipBlanks_of_not_blank (by decide)
    exact .bool hstarts

theorem Arrangement.shows_text (text : String) :
    arrangement.Shows numeral (.text text) (.text text) where
  ends _ := arrangement.ends_text text
  denotes _ rest hrest := .text ⟨rest, arrangement.reads_readText text hrest⟩

theorem Arrangement.shows_number {stands : Number → ν → Prop} {number : Number} {value : ν}
    (hspells : Spells numeral stands) (hstands : stands number value) :
    arrangement.Shows numeral (.number number) (.number value) := by
  have hword : (Value.number number).IsWord := trivial
  have hprinted : ∀ depth rest, arrangement.Closes rest →
      NumeralAt (encode (arrangement.text depth (.number number)) ++ rest) number.value rest := by
    intro depth rest hrest
    rw [arrangement.text_word depth hword, word]
    exact number.numeralAt layout (arrangement.endsNumber hrest)
  refine ⟨fun depth rest hrest => (hprinted depth rest hrest).passes, fun depth rest hrest => ?_⟩
  have hnumeral := hspells hstands (arrangement.endsNumber hrest)
  have hstarts := (hprinted depth rest hrest).skipBlanks_eq
  rw [arrangement.text_word depth hword, word] at hstarts ⊢
  rw [← hstarts] at hnumeral
  exact .number hnumeral

theorem Arrangement.shows_array {values : List Value} {data : List (Datum ν)}
    (hshows : List.Forall₂ (arrangement.Shows numeral) values data) :
    arrangement.Shows numeral (.array values) (.array data) := by
  have hblank : isBlank '['.toUInt8 = false := by decide
  have hprinted : ∀ depth rest, ∃ given inner,
      skipBlanks (encode (arrangement.text depth (.array values)) ++ rest) = '['.toUInt8 :: inner ∧
        Items inner given rest ∧ List.Forall₂ (arrangement.DueAt (depth + 1)) values given := by
    intro depth rest
    have hends := forall_of_forall₂ hshows fun _ _ hshows => hshows.ends (depth + 1)
    obtain ⟨given, inner, hspelling, hitems, hdue⟩ := arrangement.items rest hends
    exact ⟨given, inner, hspelling ▸ skipBlanks_of_not_blank hblank, hitems, hdue⟩
  refine ⟨fun depth rest _ => ?_, fun depth rest _ => ?_⟩
  · obtain ⟨given, inner, hopen, hitems, -⟩ := hprinted depth rest
    exact passes_list hopen hitems
  · obtain ⟨given, inner, hopen, hitems, hdue⟩ := hprinted depth rest
    have hdenotes : List.Forall₂ (Denotes numeral) given data :=
      forall₂_combine hdue hshows fun _ _ _ hdue hshows => hshows.of_dueAt hdue
    exact .array hopen hitems hdenotes.length_eq fun _ hpair => List.forall₂_zip hdenotes hpair

theorem Arrangement.shows_object {members : List Member} {entries : List (String × Datum ν)}
    (hordered : Ascending members) (hshows : Matches (arrangement.Shows numeral) members entries) :
    arrangement.Shows numeral (.object members) (.object entries) := by
  have hblank : isBlank '\x7b'.toUInt8 = false := by decide
  have hprinted : ∀ depth rest, ∃ given inner,
      skipBlanks (encode (arrangement.text depth (.object members)) ++ rest) =
        '\x7b'.toUInt8 :: inner ∧
        Members inner given rest ∧ arrangement.DueAs (depth + 1) members given := by
    intro depth rest
    have hends := forall_of_forall₂ hshows fun _ _ hshows => hshows.2.ends (depth + 1)
    obtain ⟨given, inner, hspelling, hmembers, hdue⟩ := arrangement.members rest hends
    exact ⟨given, inner, hspelling ▸ skipBlanks_of_not_blank hblank, hmembers, hdue⟩
  refine ⟨fun depth rest _ => ?_, fun depth rest _ => ?_⟩
  · obtain ⟨given, inner, hopen, hmembers, -⟩ := hprinted depth rest
    exact passes_object hopen hmembers
  · obtain ⟨given, inner, hopen, hmembers, hdue⟩ := hprinted depth rest
    have hdenotes : Matches (Denotes numeral) given entries :=
      Matches.combine hdue hshows fun _ _ _ hdue hshows => hshows.of_dueAt hdue
    obtain ⟨hkeys, hentries⟩ := matches_iff.mp hdenotes
    -- The entries have the keys of the members, which are in order.
    have hascending : Ascending entries := by rwa [Ascending, ← (matches_iff.mp hshows).1]
    have hdistinct : (given.map Prod.fst).Nodup := hkeys ▸ hascending.imp ne_of_lt
    rw [← entered_of_ascending hascending]
    exact .object hopen hmembers hdistinct hkeys hentries

/-- A value is printed as what it carries. -/
theorem Carries.shows {stands : Number → ν → Prop} {value : Value} {datum : Datum ν}
    (hcarries : Carries stands value datum) (hspells : Spells numeral stands) :
    arrangement.Shows numeral value datum := by
  induction hcarries with
  | null => exact arrangement.shows_null
  | bool flag => exact arrangement.shows_bool flag
  | number hstands => exact arrangement.shows_number hspells hstands
  | text text => exact arrangement.shows_text text
  | array hlength hdata ih =>
      exact arrangement.shows_array (List.forall₂_iff_zip.mpr ⟨hlength, fun hpair => ih _ hpair⟩)
  | object hordered hkeys hentries ih =>
      exact arrangement.shows_object hordered (matches_iff.mpr ⟨hkeys, ih⟩)

end Printing

end FreightPromotion.Json
