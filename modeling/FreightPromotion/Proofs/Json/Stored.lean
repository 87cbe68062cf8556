import FreightPromotion.Proofs.Json.Fields
import FreightPromotion.Proofs.Json.Values

/-!
# Records read from a printed object

The members of a printed object are stored in a record one after another, and those that
no field names are left out.  `Stores` says which record they make of another one, and it
can be composed (`Stores.append`), so that a document of several parts is read part by
part (`Arrangement.reads_record`), in either arrangement.
-/

namespace FreightPromotion.Json

open FreightPromotion.Text (Bytes encode)

/-! ## Parts of a printed object -/

theorem Spelling.DueAs.of_append {spelling : Spelling} {depth : Nat} {first second : List Member}
    {given : List (String × Bytes)} (hdue : spelling.DueAs depth (first ++ second) given) :
    ∃ left right, given = left ++ right ∧ spelling.DueAs depth first left ∧
      spelling.DueAs depth second right := by
  induction first generalizing given with
  | nil => exact ⟨[], given, rfl, .nil, hdue⟩
  | cons member first ih =>
      cases hdue with
      | cons hmember hdue =>
          obtain ⟨left, right, rfl, hleft, hright⟩ := ih hdue
          exact ⟨_ :: left, right, rfl, .cons hmember hleft, hright⟩

/-! ## Storing -/

section Stores

variable {arrangement : Arrangement} {σ : Type} {fields : List (Field σ)} {nesting depth : Nat}
  {record next final : σ}

/-- The members, where they are printed, turn the record into the next one. -/
structure Stores (arrangement : Arrangement) (fields : List (Field σ)) (nesting depth : Nat)
    (members : List Member) (record next : σ) : Prop where
  ends : ∀ member ∈ members, arrangement.Ends depth member.2
  stored : ∀ ⦃given⦄, arrangement.DueAs depth members given →
    storeAll fields nesting record (given.filter (·.1 ∈ fields.map (·.name))) = some next

theorem Stores.nil : Stores arrangement fields nesting depth [] record record where
  ends := by simp
  stored := by
    rintro given ⟨⟩
    rfl

theorem Stores.append {first second : List Member}
    (hfirst : Stores arrangement fields nesting depth first record next)
    (hsecond : Stores arrangement fields nesting depth second next final) :
    Stores arrangement fields nesting depth (first ++ second) record final where
  ends := List.forall_mem_append.mpr ⟨hfirst.ends, hsecond.ends⟩
  stored := by
    intro given hdue
    obtain ⟨left, right, rfl, hleft, hright⟩ := hdue.of_append
    rw [List.filter_append, storeAll, List.foldlM_append, ← storeAll, hfirst.stored hleft]
    exact hsecond.stored hright

section Single

variable {α : Type} {key : String} {value : Value} {found : α} {reader : Reader α}

/-- A member that no field names changes nothing. -/
theorem Stores.unknown (hkey : key ∉ fields.map (·.name)) (hends : arrangement.Ends depth value) :
    Stores arrangement fields nesting depth [(key, value)] record record where
  ends := by simpa using hends
  stored := by
    intro given hdue
    obtain ⟨⟨name, input⟩, _, ⟨rfl, -⟩, ⟨⟩, rfl⟩ := List.forall₂_cons_left_iff.mp hdue
    rw [List.filter_cons_of_neg (by simpa using hkey)]
    rfl

/-- A member that a field names is stored in it. -/
theorem Stores.known (store : σ → α → σ)
    (hfield : fields.find? (·.name = key) = some (.of key reader store))
    (hregular : Regular (reader nesting))
    (hreads : arrangement.Reads (reader nesting) depth value found) :
    Stores arrangement fields nesting depth [(key, value)] record (store record found) where
  ends := by simpa using hreads.ends hregular
  stored := by
    intro given hdue
    obtain ⟨⟨name, input⟩, _, ⟨rfl, hinput⟩, ⟨⟩, rfl⟩ := List.forall₂_cons_left_iff.mp hdue
    obtain ⟨after, hread⟩ := hreads.of_dueAt hregular hinput
    have hstore : storeMember fields nesting record (key, input) = some (store record found) :=
      storeMember_eq_some_iff.mpr
        ⟨_, hfield, after, Field.of_read_eq_ok_iff.mpr ⟨found, hread, rfl⟩⟩
    have hname : key ∈ fields.map (·.name) := by
      by_contra hunknown
      rw [find?_name_eq_none_iff.mpr hunknown] at hfield
      contradiction
    rw [List.filter_cons_of_pos (by simpa using hname), storeAll, List.filter_nil,
      List.foldlM_cons, hstore]
    rfl

end Single

/-- A printed object is read as the record that its members make of a blank one. -/
theorem Arrangement.reads_record {name : String} {blank : σ} {members : List Member}
    (hfields : ∀ field ∈ fields, field.Agrees) (hnodup : (fields.map (·.name)).Nodup)
    (hdistinct : (members.map Prod.fst).Nodup)
    (hstores : Stores arrangement fields nesting (depth + 1) members blank final) :
    arrangement.Reads (readRecord name fields blank (nesting + 1)) depth (.object members)
      final := by
  intro rest _
  have hblank : isBlank '\x7b'.toUInt8 = false := by decide
  obtain ⟨given, inner, hspelling, hmembers, hdue⟩ := arrangement.members rest hstores.ends
  have hkeys : ((given.filter (·.1 ∈ fields.map (·.name))).map Prod.fst).Nodup :=
    (Matches.keys hdue ▸ hdistinct).sublist (List.filter_sublist.map Prod.fst)
  rw [hspelling]
  exact (readRecord_eq_ok_iff hfields hnodup).mpr
    ⟨_, .object (skipBlanks_of_not_blank hblank) hmembers hkeys, hstores.stored hdue⟩

theorem regular_readRecord {name : String} {blank : σ} (hfields : ∀ field ∈ fields, field.Agrees)
    (hnodup : (fields.map (·.name)).Nodup) (nesting : Nat) :
    Regular (readRecord name fields blank nesting) where
  blanks := solid_readRecord.blanks nesting
  agrees := readRecord_agrees hfields hnodup

/-- What the fields keep, a record has after storing. -/
theorem storeAll_induction {motive : σ → Prop} {given : List (String × Bytes)}
    (hfields : ∀ field ∈ fields, ∀ ⦃record next input after⦄, motive record →
      field.read nesting record input = .ok (next, after) → motive next)
    (hrecord : motive record) (hstore : storeAll fields nesting record given = some final) :
    motive final := by
  induction given generalizing record with
  | nil =>
      cases hstore
      exact hrecord
  | cons member given ih =>
      obtain ⟨key, input⟩ := member
      obtain ⟨next, hmember, hstore⟩ := Option.bind_eq_some_iff.mp hstore
      obtain ⟨field, hfind, left, hread⟩ := storeMember_eq_some_iff.mp hmember
      exact ih (hfields field (List.mem_of_find?_eq_some hfind) hrecord hread) hstore

end Stores

end FreightPromotion.Json
