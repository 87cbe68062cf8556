import FreightPromotion.Proofs.Json.Members

/-!
# Records by their members

A record in the form of an object is given the members that its fields name, in any
order and each at most once; other members do not count.  A record in the form of a
list is given its items, in the order of its fields.  `Given` covers both forms.

Reading a record is storing what it is given (`readRecord_eq_ok_iff`), provided that
its fields are not read differently from how they are passed over.
-/

namespace FreightPromotion.Json

open FreightPromotion.Text (Bytes)

section Records

variable {σ : Type} {fields : List (Field σ)} {nesting : Nat} {input after : Bytes}

/-- The members that a record with fields of these names is given. -/
inductive Given (names : List String) : Bytes → List (String × Bytes) → Bytes → Prop
  | object {input rest after : Bytes} {members : List (String × Bytes)}
      (hopen : skipBlanks input = '\x7b'.toUInt8 :: rest) (hmembers : Members rest members after)
      (hdistinct : ((members.filter (·.1 ∈ names)).map Prod.fst).Nodup) :
      Given names input (members.filter (·.1 ∈ names)) after
  | list {input rest after : Bytes} {items : List Bytes}
      (hopen : skipBlanks input = '['.toUInt8 :: rest) (hitems : Items rest items after)
      (hlength : items.length ≤ names.length) : Given names input (names.zip items) after

theorem Given.passes {names : List String} {given : List (String × Bytes)}
    (hgiven : Given names input given after) : Passes input after := by
  cases hgiven with
  | object hopen hmembers hdistinct => exact passes_object hopen hmembers
  | list hopen hitems hlength => exact passes_list hopen hitems

theorem map_fst_zip_sublist (names : List String) (items : List Bytes) :
    ((names.zip items).map Prod.fst).Sublist names := by
  induction names generalizing items with
  | nil => simp
  | cons name names ih =>
      cases items with
      | nil => simp
      | cons item items => simpa using ih items

/-- No field is given two members. -/
theorem Given.distinct {names : List String} {given : List (String × Bytes)}
    (hgiven : Given names input given after) (hnodup : names.Nodup) :
    (given.map Prod.fst).Nodup := by
  cases hgiven with
  | object hopen hmembers hdistinct => exact hdistinct
  | list hopen hitems hlength => exact (map_fst_zip_sublist names _).nodup hnodup

/-- Every member that a record is given belongs to a field. -/
theorem Given.known {names : List String} {given : List (String × Bytes)}
    (hgiven : Given names input given after) : ∀ member ∈ given, member.1 ∈ names := by
  intro member hmember
  cases hgiven with
  | object hopen hmembers hdistinct => simpa using (List.mem_filter.mp hmember).2
  | list hopen hitems hlength =>
      exact (map_fst_zip_sublist names _).subset (List.mem_map_of_mem hmember)

/-- Reading the field ends where its value is passed over. -/
def Field.Agrees (field : Field σ) : Prop :=
  ∀ nesting record, Json.Agrees (field.read nesting record)

/-- The record after a member has been stored in the field that it names. -/
def storeMember (fields : List (Field σ)) (nesting : Nat) (record : σ)
    (member : String × Bytes) : Option σ := do
  let field ← fields.find? (·.name = member.1)
  let (record, _) ← (field.read nesting record member.2).toOption
  return record

/-- The record after members have been stored one after another. -/
def storeAll (fields : List (Field σ)) (nesting : Nat) (record : σ)
    (given : List (String × Bytes)) : Option σ :=
  given.foldlM (storeMember fields nesting) record

theorem storeMember_eq_some_iff {record next : σ} {key : String} {value : Bytes} :
    storeMember fields nesting record (key, value) = some next ↔
      ∃ field, fields.find? (·.name = key) = some field ∧
        ∃ left, field.read nesting record value = .ok (next, left) := by
  simp [storeMember, Option.bind_eq_some_iff, toOption_eq_some_iff]

/-! ## The form of an object -/

/-- Takes up a member of an object: one that no field names changes nothing, and one
that was seen before is not taken. -/
def takeField (fields : List (Field σ)) (nesting : Nat) (state : σ × List String)
    (member : String × Bytes) : Option (σ × List String) :=
  if member.1 ∉ fields.map (·.name) then some state
  else if member.1 ∈ state.2 then none
  else (storeMember fields nesting state.1 member).map fun record => (record, member.1 :: state.2)

theorem find?_name_eq_none_iff {key : String} :
    fields.find? (·.name = key) = none ↔ key ∉ fields.map (·.name) := by
  simp [List.find?_eq_none]

theorem takeField_of_unknown {state : σ × List String} {key : String}
    (hunknown : key ∉ fields.map (·.name)) (value : Bytes) :
    takeField fields nesting state (key, value) = some state :=
  if_pos hunknown

theorem takeField_of_seen {state : σ × List String} {key : String}
    (hknown : key ∈ fields.map (·.name)) (hseen : key ∈ state.2) (value : Bytes) :
    takeField fields nesting state (key, value) = none := by
  rw [takeField, if_neg (not_not.mpr hknown), if_pos hseen]

theorem takeField_of_known {state : σ × List String} {key : String}
    (hknown : key ∈ fields.map (·.name)) (hseen : key ∉ state.2) (value : Bytes) :
    takeField fields nesting state (key, value) =
      (storeMember fields nesting state.1 (key, value)).map fun record =>
        (record, key :: state.2) := by
  rw [takeField, if_neg (not_not.mpr hknown), if_neg hseen]

theorem takes_readField (hfields : ∀ field ∈ fields, field.Agrees) :
    Takes (readField fields nesting) (takeField fields nesting) := by
  intro state next key input after
  unfold readField
  cases hfind : fields.find? (·.name = key) with
  | none =>
      have hunknown : key ∉ fields.map (·.name) := find?_name_eq_none_iff.mp hfind
      simp [takeField_of_unknown hunknown, skipValue_eq_ok_iff]
  | some field =>
      have hknown : key ∈ fields.map (·.name) := by
        by_contra hunknown
        rw [find?_name_eq_none_iff.mpr hunknown] at hfind
        contradiction
      have hagrees := hfields field (List.mem_of_find?_eq_some hfind)
      by_cases hseen : key ∈ state.2
      · simp [takeField_of_seen hknown hseen, hseen]
      · simp only [takeField_of_known hknown hseen, hseen, if_false, bind_eq_ok_iff,
          Option.map_eq_some_iff, storeMember_eq_some_iff, hfind, Option.some.injEq]
        constructor
        · rintro ⟨value, hcolon, ⟨record, left⟩, hread, hnext⟩
          cases hnext
          exact ⟨value, hcolon, hagrees _ _ hread, record, ⟨field, rfl, left, hread⟩, rfl⟩
        · rintro ⟨value, hcolon, hpasses, record, ⟨_, rfl, left, hread⟩, rfl⟩
          have hleft : left = after := (hagrees _ _ hread).unique hpasses
          exact ⟨value, hcolon, (record, left), hread, by rw [hleft]⟩

/-- An object can be taken up exactly when no field is named twice and all members
that name one can be stored. -/
theorem foldlM_takeField {record final : σ} {seen : List String}
    {members : List (String × Bytes)} :
    (∃ left, members.foldlM (takeField fields nesting) (record, seen) = some (final, left)) ↔
      ((members.filter (·.1 ∈ fields.map (·.name))).map Prod.fst).Nodup ∧
        (∀ key ∈ (members.filter (·.1 ∈ fields.map (·.name))).map Prod.fst, key ∉ seen) ∧
          storeAll fields nesting record (members.filter (·.1 ∈ fields.map (·.name))) =
            some final := by
  induction members generalizing record seen with
  | nil => simp [storeAll]
  | cons member members ih =>
      obtain ⟨key, value⟩ := member
      rw [List.foldlM_cons]
      by_cases hknown : key ∈ fields.map (·.name)
      · rw [List.filter_cons_of_pos (by simpa using hknown)]
        by_cases hseen : key ∈ seen
        · have htake : takeField fields nesting (record, seen) (key, value) = none :=
            takeField_of_seen hknown hseen value
          simp [htake, hseen]
        · rw [takeField_of_known hknown hseen]
          -- The name is seen from now on, and so it must not come again.
          cases hstore : storeMember fields nesting record (key, value) with
          | none => simp [hseen, hstore, storeAll]
          | some next =>
              have hlater := @ih next (key :: seen)
              simp only [hseen, hstore, storeAll, Option.map_some, Option.bind_eq_bind,
                Option.bind_some, hlater, List.foldlM_cons, List.map_cons, List.nodup_cons,
                List.mem_cons, not_or, forall_eq_or_imp, not_false_iff, true_and]
              constructor
              · rintro ⟨hnodup, hfresh, hfinal⟩
                exact ⟨⟨fun hkey => (hfresh key hkey).1 rfl, hnodup⟩,
                  fun other hother => (hfresh other hother).2, hfinal⟩
              · rintro ⟨⟨hkey, hnodup⟩, hfresh, hfinal⟩
                refine ⟨hnodup, fun other hother => ⟨?_, hfresh other hother⟩, hfinal⟩
                rintro rfl
                exact hkey hother
      · rw [takeField_of_unknown hknown, List.filter_cons_of_neg (by simpa using hknown)]
        exact ih

/-! ## The form of a list -/

/-- The record after the first fields have been read from items. -/
def storeItems (nesting : Nat) : List (Field σ) → σ → List Bytes → Option σ
  | _, record, [] => some record
  | [], _, _ :: _ => none
  | field :: fields, record, item :: items => do
    let (record, _) ← (field.read nesting record item).toOption
    storeItems nesting fields record items

theorem readRecordEnd_eq_ok_iff :
    readRecordEnd input = .ok after ↔ skipBlanks input = ']'.toUInt8 :: after := by
  unfold readRecordEnd
  constructor
  · intro hread
    split at hread
    · contradiction
    · rename_i byte rest hnext
      split at hread
      · rename_i hclosed
        cases hread
        rw [hnext, hclosed]
      · split at hread
        · contradiction
        · split at hread
          · contradiction
          · split at hread <;> contradiction
  · intro hend
    simp [hend]

theorem readMoreFields_eq_ok_iff (hfields : ∀ field ∈ fields, field.Agrees) {record final : σ} :
    readMoreFields nesting fields record input = .ok (final, after) ↔
      ∃ items, MoreItems input items after ∧
        storeItems nesting fields record items = some final := by
  induction fields generalizing record input with
  | nil =>
      constructor
      · intro hread
        obtain ⟨left, hend, hfinal⟩ := bind_eq_ok_iff.mp hread
        cases hfinal
        exact ⟨[], .nil (readRecordEnd_eq_ok_iff.mp hend), by simp [storeItems]⟩
      · rintro ⟨items, hitems, hstore⟩
        cases hitems with
        | nil hend =>
            simp only [storeItems, Option.some.injEq] at hstore
            simp [readMoreFields, readRecordEnd_eq_ok_iff.mpr hend, hstore]
        | cons hcomma hitem hmore => simp [storeItems] at hstore
  | cons field fields ih =>
      have hagrees := hfields field List.mem_cons_self
      have hlater := fun other hother => hfields other (List.mem_cons_of_mem field hother)
      have hbracket : ','.toUInt8 ≠ ']'.toUInt8 := by decide
      rw [readMoreFields]
      constructor
      · intro hread
        split at hread
        · contradiction
        · rename_i byte rest hnext
          split at hread
          · rename_i hclosed
            subst hclosed
            cases hread
            exact ⟨[], .nil hnext, by simp [storeItems]⟩
          · split at hread
            · contradiction
            · rename_i hcomma
              rw [ne_eq, not_not] at hcomma
              subst hcomma
              split at hread
              · contradiction
              · rename_i next others hothers
                split at hread
                · contradiction
                · obtain ⟨⟨middle, beyond⟩, hvalue, hmore⟩ := bind_eq_ok_iff.mp hread
                  rw [← hothers] at hvalue
                  have hitem : Passes rest beyond :=
                    passes_skipBlanks.mp (hagrees _ _ hvalue)
                  obtain ⟨items, hitems, hstore⟩ := (ih hlater).mp hmore
                  exact ⟨_, .cons hnext hitem hitems,
                    by simp [storeItems, hvalue, hstore, Except.toOption]⟩
      · rintro ⟨items, hitems, hstore⟩
        cases hitems with
        | nil hend =>
            simp only [storeItems, Option.some.injEq] at hstore
            simp [hend, hstore]
        | cons hcomma hitem hmore =>
            obtain ⟨⟨middle, left⟩, hvalue, hstore⟩ := Option.bind_eq_some_iff.mp hstore
            rw [toOption_eq_some_iff] at hvalue
            have hleft := (passes_skipBlanks.mp (hagrees _ _ hvalue)).unique hitem
            have hmore := (ih hlater).mpr ⟨_, hmore, hstore⟩
            obtain ⟨next, others, hothers, hnext, -⟩ := hitem.exists_head
            rw [hothers, hleft] at hvalue
            -- A value never starts with the closing bracket that the reader looks for after a comma.
            simp [hcomma, hbracket, hothers, hnext, hvalue, hmore]

theorem readFields_eq_ok_iff (hfields : ∀ field ∈ fields, field.Agrees) {record final : σ} :
    readFields nesting fields record input = .ok (final, after) ↔
      ∃ items, Items input items after ∧ storeItems nesting fields record items = some final := by
  cases fields with
  | nil =>
      constructor
      · intro hread
        obtain ⟨left, hend, hfinal⟩ := bind_eq_ok_iff.mp hread
        cases hfinal
        exact ⟨[], .nil (readRecordEnd_eq_ok_iff.mp hend), by simp [storeItems]⟩
      · rintro ⟨items, hitems, hstore⟩
        cases hitems with
        | nil hend =>
            simp only [storeItems, Option.some.injEq] at hstore
            simp [readFields, readRecordEnd_eq_ok_iff.mpr hend, hstore]
        | cons hitem hmore => simp [storeItems] at hstore
  | cons field fields =>
      have hagrees := hfields field List.mem_cons_self
      have hlater := fun other hother => hfields other (List.mem_cons_of_mem field hother)
      unfold readFields
      dsimp only
      constructor
      · intro hread
        split at hread
        · contradiction
        · contradiction
        · rename_i first more byte rest hlist hnext
          cases hlist
          split at hread
          · rename_i hclosed
            subst hclosed
            cases hread
            exact ⟨[], .nil hnext, by simp [storeItems]⟩
          · obtain ⟨⟨middle, beyond⟩, hvalue, hmore⟩ := bind_eq_ok_iff.mp hread
            rw [← hnext] at hvalue
            have hitem : Passes input beyond := passes_skipBlanks.mp (hagrees _ _ hvalue)
            obtain ⟨items, hitems, hstore⟩ := (readMoreFields_eq_ok_iff hlater).mp hmore
            exact ⟨_, .cons hitem hitems, by simp [storeItems, hvalue, hstore, Except.toOption]⟩
      · rintro ⟨items, hitems, hstore⟩
        cases hitems with
        | nil hend =>
            simp only [storeItems, Option.some.injEq] at hstore
            simp [hend, hstore]
        | cons hitem hmore =>
            obtain ⟨⟨middle, left⟩, hvalue, hstore⟩ := Option.bind_eq_some_iff.mp hstore
            rw [toOption_eq_some_iff] at hvalue
            have hleft := (passes_skipBlanks.mp (hagrees _ _ hvalue)).unique hitem
            have hmore := (readMoreFields_eq_ok_iff hlater).mpr ⟨_, hmore, hstore⟩
            obtain ⟨next, others, hothers, hnext, -⟩ := hitem.exists_head
            rw [hothers, hleft] at hvalue
            simp [hothers, hnext, hvalue, hmore]

/-- Items are stored as the members that the fields name in their order. -/
theorem storeItems_eq_some_iff {later : List (Field σ)}
    (hnames : ∀ field ∈ later, fields.find? (·.name = field.name) = some field)
    {record final : σ} {items : List Bytes} :
    storeItems nesting later record items = some final ↔
      items.length ≤ later.length ∧
        storeAll fields nesting record ((later.map (·.name)).zip items) = some final := by
  induction later generalizing record items with
  | nil =>
      cases items with
      | nil => simp [storeItems, storeAll]
      | cons item items => simp [storeItems]
  | cons field later ih =>
      cases items with
      | nil => simp [storeItems, storeAll]
      | cons item items =>
          have hfield := hnames field List.mem_cons_self
          have hlater := fun other hother => hnames other (List.mem_cons_of_mem field hother)
          cases hread : field.read nesting record item with
          | error fault => simp [storeItems, storeAll, storeMember, hfield, hread, Except.toOption]
          | ok result =>
              have htail := @ih hlater result.1 items
              simp_all [storeItems, storeAll, storeMember, Except.toOption]

/-! ## Both forms -/

theorem find?_name_of_nodup (hnodup : (fields.map (·.name)).Nodup) :
    ∀ field ∈ fields, fields.find? (·.name = field.name) = some field := by
  induction fields with
  | nil => simp
  | cons first fields ih =>
      rw [List.map_cons, List.nodup_cons] at hnodup
      intro field hfield
      rcases List.mem_cons.mp hfield with rfl | hlater
      · exact List.find?_cons_of_pos (by simp)
      · have hname : first.name ≠ field.name := by
          intro hname
          exact hnodup.1 (hname ▸ List.mem_map_of_mem hlater)
        rw [List.find?_cons_of_neg (by simpa using hname)]
        exact ih hnodup.2 field hlater

/-- Reading a record is storing the members that it is given. -/
theorem readRecord_eq_ok_iff {name : String} {blank record : σ}
    (hfields : ∀ field ∈ fields, field.Agrees) (hnodup : (fields.map (·.name)).Nodup) :
    readRecord name fields blank (nesting + 1) input = .ok (record, after) ↔
      ∃ given, Given (fields.map (·.name)) input given after ∧
        storeAll fields nesting blank given = some record := by
  have hbrackets : '['.toUInt8 ≠ '\x7b'.toUInt8 := by decide
  have htakes : Takes (readField fields nesting) (takeField fields nesting) :=
    takes_readField hfields
  rw [readRecord, withNext_eq_ok_iff]
  constructor
  · rintro ⟨byte, rest, hnext, hread⟩
    split at hread
    · rename_i hopen
      subst hopen
      obtain ⟨inner, hinner, hread⟩ := bind_eq_ok_iff.mp hread
      cases hinner
      obtain ⟨⟨⟨final, seen⟩, left⟩, hmembers, hfinal⟩ := bind_eq_ok_iff.mp hread
      cases hfinal
      obtain ⟨members, hmembers, hfold⟩ := (readMembers_eq_ok_iff htakes).mp hmembers
      obtain ⟨hdistinct, -, hstore⟩ := foldlM_takeField.mp ⟨seen, hfold⟩
      exact ⟨_, .object hnext hmembers hdistinct, hstore⟩
    · split at hread
      · rename_i hopen
        subst hopen
        obtain ⟨inner, hinner, hread⟩ := bind_eq_ok_iff.mp hread
        cases hinner
        obtain ⟨items, hitems, hstore⟩ := (readFields_eq_ok_iff hfields).mp hread
        obtain ⟨hlength, hstore⟩ :=
          (storeItems_eq_some_iff (find?_name_of_nodup hnodup)).mp hstore
        exact ⟨_, .list hnext hitems (by rwa [List.length_map]), hstore⟩
      · contradiction
  · rintro ⟨given, hgiven, hstore⟩
    cases hgiven with
    | object hopen hmembers hdistinct =>
        obtain ⟨seen, hfold⟩ := foldlM_takeField.mpr ⟨hdistinct, fun _ _ => List.not_mem_nil, hstore⟩
        have hmembers := (readMembers_eq_ok_iff htakes).mpr ⟨_, hmembers, hfold⟩
        exact ⟨_, _, hopen, by simp [descend, hmembers]⟩
    | list hopen hitems hlength =>
        rw [List.length_map] at hlength
        have hstore := (storeItems_eq_some_iff (find?_name_of_nodup hnodup)).mpr ⟨hlength, hstore⟩
        have hitems := (readFields_eq_ok_iff hfields).mpr ⟨_, hitems, hstore⟩
        exact ⟨_, _, hopen, by simp [descend, hbrackets, hitems]⟩

/-- A record takes a bracket. -/
theorem readRecord_zero {name : String} {blank record : σ} :
    readRecord name fields blank 0 input ≠ .ok (record, after) := by
  rw [readRecord, ne_eq, withNext_eq_ok_iff]
  rintro ⟨byte, rest, hnext, hread⟩
  split at hread
  · contradiction
  · split at hread <;> contradiction

theorem readRecord_agrees {name : String} {blank : σ} (hfields : ∀ field ∈ fields, field.Agrees)
    (hnodup : (fields.map (·.name)).Nodup) :
    Agrees (readRecord name fields blank nesting) := by
  intro input record after hread
  cases nesting with
  | zero => exact absurd hread readRecord_zero
  | succ nesting =>
      obtain ⟨given, hgiven, -⟩ := (readRecord_eq_ok_iff hfields hnodup).mp hread
      exact hgiven.passes

end Records

end FreightPromotion.Json
