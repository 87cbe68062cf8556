import FreightPromotion.Proofs.Json.Numerals
import FreightPromotion.Proofs.Json.Objects
import FreightPromotion.Proofs.Json.Parts

/-!
# What a document denotes

What a document says does not depend on the order of its members, on its blanks and escapes, or on
how a program keeps numbers.  `Datum` leaves all of that out, and `Denotes` says which datum stands
in a text, given what its numerals stand for.  It is determined by the text
(`Denotes.determines`), since the first byte of a value tells its kind.
-/

namespace FreightPromotion.Json

open FreightPromotion.Text (Bytes encode)

/-! ## Values -/

/-- What a document says, with numbers of any kind.  The members of an object are listed in the
order of their keys. -/
inductive Datum (ν : Type) where
  | null
  | bool (flag : Bool)
  | number (value : ν)
  | text (text : String)
  | array (items : List (Datum ν))
  | object (entries : List (String × Datum ν))

mutual

/-- The same with other numbers. -/
def Datum.map {ν μ : Type} (change : ν → μ) : Datum ν → Datum μ
  | .null => .null
  | .bool flag => .bool flag
  | .number value => .number (change value)
  | .text text => .text text
  | .array items => .array (mapItems change items)
  | .object entries => .object (mapEntries change entries)

/-- The items with other numbers. -/
def mapItems {ν μ : Type} (change : ν → μ) : List (Datum ν) → List (Datum μ)
  | [] => []
  | item :: items => item.map change :: mapItems change items

/-- The entries with other numbers. -/
def mapEntries {ν μ : Type} (change : ν → μ) : List (String × Datum ν) → List (String × Datum μ)
  | [] => []
  | (key, datum) :: entries => (key, datum.map change) :: mapEntries change entries

end

mutual

/-- The numbers of a datum. -/
def Datum.numbers {ν : Type} : Datum ν → List ν
  | .null => []
  | .bool _ => []
  | .number value => [value]
  | .text _ => []
  | .array items => itemNumbers items
  | .object entries => entryNumbers entries

/-- The numbers of some items. -/
def itemNumbers {ν : Type} : List (Datum ν) → List ν
  | [] => []
  | item :: items => item.numbers ++ itemNumbers items

/-- The numbers of some entries. -/
def entryNumbers {ν : Type} : List (String × Datum ν) → List ν
  | [] => []
  | (_, datum) :: entries => datum.numbers ++ entryNumbers entries

end

section Map

variable {ν μ : Type} {change other : ν → μ}

theorem mapItems_eq (items : List (Datum ν)) :
    mapItems change items = items.map (Datum.map change) := by
  induction items with
  | nil => rw [mapItems, List.map_nil]
  | cons item items ih => rw [mapItems, List.map_cons, ih]

theorem mapEntries_eq (entries : List (String × Datum ν)) :
    mapEntries change entries = entries.map fun entry => (entry.1, entry.2.map change) := by
  induction entries with
  | nil => rw [mapEntries, List.map_nil]
  | cons entry entries ih => rw [mapEntries, List.map_cons, ih]

mutual

/-- Two changes of the numbers come to the same exactly if they agree on each number. -/
theorem Datum.map_eq_map_iff : ∀ datum : Datum ν,
    datum.map change = datum.map other ↔ ∀ value ∈ datum.numbers, change value = other value
  | .null => by simp [Datum.map, Datum.numbers]
  | .bool _ => by simp [Datum.map, Datum.numbers]
  | .number _ => by simp [Datum.map, Datum.numbers]
  | .text _ => by simp [Datum.map, Datum.numbers]
  | .array items => by
      simpa only [Datum.map, Datum.numbers, Datum.array.injEq] using mapItems_eq_iff items
  | .object entries => by
      simpa only [Datum.map, Datum.numbers, Datum.object.injEq] using mapEntries_eq_iff entries

theorem mapItems_eq_iff : ∀ items : List (Datum ν),
    mapItems change items = mapItems other items ↔
      ∀ value ∈ itemNumbers items, change value = other value
  | [] => by simp [mapItems, itemNumbers]
  | item :: items => by
      rw [mapItems, mapItems, List.cons.injEq, item.map_eq_map_iff, mapItems_eq_iff items,
        itemNumbers, List.forall_mem_append]

theorem mapEntries_eq_iff : ∀ entries : List (String × Datum ν),
    mapEntries change entries = mapEntries other entries ↔
      ∀ value ∈ entryNumbers entries, change value = other value
  | [] => by simp [mapEntries, entryNumbers]
  | (key, datum) :: entries => by
      rw [mapEntries, mapEntries, List.cons.injEq, Prod.mk.injEq, datum.map_eq_map_iff,
        mapEntries_eq_iff entries, entryNumbers, List.forall_mem_append, and_iff_right rfl]

end

end Map

/-! ## Documents -/

/-- The value that is due denotes the datum, its numbers those that the numerals stand for.  No key
is repeated in an object. -/
inductive Denotes {ν : Type} (numeral : Bytes → ν → Bytes → Prop) : Bytes → Datum ν → Prop
  | null {input after : Bytes} (hword : skipBlanks input = encode "null" ++ after) :
      Denotes numeral input .null
  | bool {input after : Bytes} {flag : Bool}
      (hword : skipBlanks input = encode (if flag then "true" else "false") ++ after) :
      Denotes numeral input (.bool flag)
  | number {input after : Bytes} {value : ν} (hnumeral : numeral (skipBlanks input) value after) :
      Denotes numeral input (.number value)
  | text {input : Bytes} {text : String} (htext : IsText input text) :
      Denotes numeral input (.text text)
  | array {input rest after : Bytes} {items : List Bytes} {data : List (Datum ν)}
      (hopen : skipBlanks input = '['.toUInt8 :: rest) (hitems : Items rest items after)
      (hlength : items.length = data.length)
      (hdata : ∀ pair ∈ items.zip data, Denotes numeral pair.1 pair.2) :
      Denotes numeral input (.array data)
  | object {input rest after : Bytes} {members : List (String × Bytes)}
      {entries : List (String × Datum ν)} (hopen : skipBlanks input = '\x7b'.toUInt8 :: rest)
      (hmembers : Members rest members after) (hdistinct : (members.map Prod.fst).Nodup)
      (hkeys : members.map Prod.fst = entries.map Prod.fst)
      (hentries : ∀ pair ∈ members.zip entries, Denotes numeral pair.1.2 pair.2.2) :
      Denotes numeral input (.object (entered entries))

section Denotes

variable {ν : Type} {numeral : Bytes → ν → Bytes → Prop} {input other : Bytes} {datum : Datum ν}

/-- Blanks before the value do not count. -/
theorem Denotes.congr (hdenotes : Denotes numeral input datum)
    (hblanks : skipBlanks input = skipBlanks other) : Denotes numeral other datum := by
  cases hdenotes with
  | null hword => exact .null (hblanks ▸ hword)
  | bool hword => exact .bool (hblanks ▸ hword)
  | number hnumeral => exact .number (hblanks ▸ hnumeral)
  | text htext =>
      obtain ⟨after, hread⟩ := htext
      refine .text ⟨after, ?_⟩
      rw [← solid_readText.blanks, ← hblanks, solid_readText.blanks, hread]
  | array hopen hitems hlength hdata => exact .array (hblanks ▸ hopen) hitems hlength hdata
  | object hopen hmembers hdistinct hkeys hentries =>
      exact .object (hblanks ▸ hopen) hmembers hdistinct hkeys hentries

end Denotes

/-! ## Documents determine what they denote -/

/-- The kinds of values. -/
inductive Kind where
  | null
  | bool
  | number
  | text
  | array
  | object

/-- The kind of a datum. -/
def Datum.kind {ν : Type} : Datum ν → Kind
  | .null => .null
  | .bool _ => .bool
  | .number _ => .number
  | .text _ => .text
  | .array _ => .array
  | .object _ => .object

/-- The kind of a value that starts with the byte. -/
def kindOf (byte : UInt8) : Kind :=
  if byte = 'n'.toUInt8 then .null
  else if byte = 't'.toUInt8 ∨ byte = 'f'.toUInt8 then .bool
  else if byte = '\"'.toUInt8 then .text
  else if byte = '['.toUInt8 then .array
  else if byte = '\x7b'.toUInt8 then .object
  else .number

section Unique

variable {input : Bytes} {datum other : Datum ℚ}

theorem kindOf_number {byte : UInt8} (hbyte : isDigit byte = true ∨ byte = '-'.toUInt8) :
    kindOf byte = .number := by
  have hother : ∀ letter : UInt8, isDigit letter = false → letter ≠ '-'.toUInt8 →
      byte ≠ letter := by
    rintro letter hdigit hminus rfl
    rcases hbyte with hbyte | hbyte
    · exact absurd hbyte (by simp [hdigit])
    · exact hminus hbyte
  unfold kindOf
  rw [if_neg (hother _ (by decide) (by decide)), if_neg, if_neg (hother _ (by decide) (by decide)),
    if_neg (hother _ (by decide) (by decide)), if_neg (hother _ (by decide) (by decide))]
  exact not_or.mpr ⟨hother _ (by decide) (by decide), hother _ (by decide) (by decide)⟩

/-- The first byte of a value tells its kind. -/
theorem Denotes.kind (hdenotes : Denotes NumeralAt input datum) :
    (skipBlanks input).head?.map kindOf = some datum.kind := by
  cases hdenotes with
  | null hword =>
      have hletters : encode "null" = 'n'.toUInt8 :: encode "ull" := by decide
      rw [hword, hletters]
      rfl
  | @bool _ _ flag hword =>
      have htrue : encode "true" = 't'.toUInt8 :: encode "rue" := by decide
      have hfalse : encode "false" = 'f'.toUInt8 :: encode "alse" := by decide
      rw [hword]
      cases flag with
      | false =>
          rw [if_neg (by decide), hfalse]
          rfl
      | true =>
          rw [if_pos rfl, htrue]
          rfl
  | number hnumeral =>
      obtain ⟨byte, rest, hnext, hbyte, -⟩ := hnumeral.exists_cons
      rw [hnext]
      exact congrArg some (kindOf_number hbyte)
  | text htext =>
      obtain ⟨after, hread⟩ := htext
      obtain ⟨byte, rest, hnext, hread⟩ := withNext_eq_ok_iff.mp hread
      split at hread
      · rename_i hquote
        rw [hnext, hquote]
        rfl
      · contradiction
  | array hopen =>
      rw [hopen]
      rfl
  | object hopen =>
      rw [hopen]
      rfl

theorem Denotes.kind_eq (hdenotes : Denotes NumeralAt input datum)
    (hother : Denotes NumeralAt input other) : datum.kind = other.kind :=
  Option.some.inj (hdenotes.kind.symm.trans hother.kind)

theorem eq_of_bool {flag flag' : Bool} {after after' : Bytes}
    (hword : skipBlanks input = encode (if flag then "true" else "false") ++ after)
    (hword' : skipBlanks input = encode (if flag' then "true" else "false") ++ after') :
    flag = flag' := by
  have htrue : encode "true" = 't'.toUInt8 :: encode "rue" := by decide
  have hfalse : encode "false" = 'f'.toUInt8 :: encode "alse" := by decide
  have hbytes : 't'.toUInt8 ≠ 'f'.toUInt8 := by decide
  have hhead := congrArg List.head? (hword.symm.trans hword')
  cases flag <;> cases flag' <;> simp_all

/-- Nothing but the datum is denoted here. -/
def Determines (input : Bytes) (datum : Datum ℚ) : Prop :=
  ∀ ⦃other⦄, Denotes NumeralAt input other → datum = other

/-- What a document denotes is determined by its text. -/
theorem Denotes.determines (hdenotes : Denotes NumeralAt input datum) : Determines input datum := by
  intro other hother
  induction hdenotes generalizing other with
  | null hword =>
      have hkind := (Denotes.null hword).kind_eq hother
      cases hother with
      | null => rfl
      | _ => cases hkind
  | bool hword =>
      have hkind := (Denotes.bool hword).kind_eq hother
      cases hother with
      | bool hword' => rw [eq_of_bool hword hword']
      | _ => cases hkind
  | number hnumeral =>
      have hkind := (Denotes.number hnumeral).kind_eq hother
      cases hother with
      | number hnumeral' => rw [(hnumeral.unique hnumeral').1]
      | _ => cases hkind
  | text htext =>
      have hkind := (Denotes.text htext).kind_eq hother
      cases hother with
      | text htext' => rw [htext.unique htext']
      | _ => cases hkind
  | @array _ _ _ items data hopen hitems hlength hdata ih =>
      have hkind := (Denotes.array hopen hitems hlength hdata).kind_eq hother
      cases hother with
      | @array _ _ _ _ others hopen' hitems' hlength' hothers =>
          obtain ⟨-, rfl⟩ := List.cons.inj (hopen.symm.trans hopen')
          obtain ⟨rfl, -⟩ := hitems.unique hitems'
          have hdata : List.Forall₂ Determines items data :=
            List.forall₂_iff_zip.mpr ⟨hlength, fun hpair _ hother => ih _ hpair hother⟩
          have hothers : List.Forall₂ (Denotes NumeralAt) items others :=
            List.forall₂_iff_zip.mpr ⟨hlength', fun hpair => hothers _ hpair⟩
          have hequal : List.Forall₂ Eq data others :=
            forall₂_combine hdata hothers fun _ _ _ hdetermines hother => hdetermines hother
          rw [List.forall₂_eq_eq_eq] at hequal
          rw [hequal]
      | _ => cases hkind
  | @object _ _ _ members entries hopen hmembers hdistinct hkeys hentries ih =>
      have hkind := (Denotes.object hopen hmembers hdistinct hkeys hentries).kind_eq hother
      cases hother with
      | @object _ _ _ _ others hopen' hmembers' _ hkeys' hothers =>
          obtain ⟨-, rfl⟩ := List.cons.inj (hopen.symm.trans hopen')
          obtain ⟨rfl, -⟩ := hmembers.unique hmembers'
          have hentries : Matches Determines members entries :=
            matches_iff.mpr ⟨hkeys, fun pair hpair _ hother => ih pair hpair hother⟩
          have hothers : Matches (Denotes NumeralAt) members others :=
            matches_iff.mpr ⟨hkeys', hothers⟩
          have hequal : Matches Eq entries others :=
            hentries.combine hothers fun _ _ _ hdetermines hother => hdetermines hother
          rw [hequal.eq]
      | _ => cases hkind

end Unique

end FreightPromotion.Json
