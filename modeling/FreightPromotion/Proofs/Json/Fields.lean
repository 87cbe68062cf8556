import FreightPromotion.Proofs.Json.Records

/-!
# What the fields of a record hold

After the members of a record have been stored, each field holds what its member
says, or what it held before if it has none (`says_of_storeAll`).  Conversely,
members that can be read can be stored (`exists_storeAll`).  So a document can be
described field by field, as `read_single_eq_ok_iff` does for records of one field.
-/

namespace FreightPromotion.Json

open FreightPromotion.Text (Bytes)

section Fields

variable {σ : Type} {fields : List (Field σ)} {nesting : Nat} {input after : Bytes}

/-! ## Fields of one value -/

section FieldOf

variable {α : Type} {name : String} {reader : Reader α} {store : σ → α → σ}

@[simp]
theorem Field.of_name : (Field.of name reader store).name = name := rfl

theorem Field.of_read_eq_ok_iff {record next : σ} :
    (Field.of name reader store).read nesting record input = .ok (next, after) ↔
      ∃ value, reader nesting input = .ok (value, after) ∧ store record value = next := by
  simp only [Field.of, bind_eq_ok_iff, Prod.exists]
  constructor
  · rintro ⟨value, left, hread, hpair⟩
    cases hpair
    exact ⟨value, hread, rfl⟩
  · rintro ⟨value, hread, rfl⟩
    exact ⟨value, after, hread, rfl⟩

theorem Field.of_agrees (hreader : ∀ nesting, Json.Agrees (reader nesting)) :
    (Field.of name reader store).Agrees := by
  intro nesting record input next after hread
  obtain ⟨value, hvalue, -⟩ := Field.of_read_eq_ok_iff.mp hread
  exact hreader nesting hvalue

end FieldOf

/-! ## What a member says -/

/-- What the member called `name` says: the value that `read` finds, or `missing` if
there is no such member. -/
def Says {α : Type} (given : List (String × Bytes)) (name : String)
    (read : Bytes → Except Fault (α × Bytes)) (missing value : α) : Prop :=
  match given.lookup name with
  | none => value = missing
  | some input => ∃ after, read input = .ok (value, after)

/-- Reading the field does not change what `get` returns. -/
def Field.Keeps {α : Type} (field : Field σ) (get : σ → α) : Prop :=
  ∀ ⦃nesting record next input after⦄,
    field.read nesting record input = .ok (next, after) → get next = get record

/-- The field called `name` is read with `read`, and `get` returns what it stores.
No other field changes that. -/
structure Holds {α : Type} (fields : List (Field σ)) (nesting : Nat) (name : String)
    (read : Bytes → Except Fault (α × Bytes)) (get : σ → α) : Prop where
  stores : ∀ field ∈ fields, field.name = name → ∀ ⦃record next input after⦄,
    field.read nesting record input = .ok (next, after) → read input = .ok (get next, after)
  succeeds : ∀ field ∈ fields, field.name = name → ∀ ⦃input value after⦄,
    read input = .ok (value, after) → ∀ record, ∃ next,
      field.read nesting record input = .ok (next, after)
  keeps : ∀ field ∈ fields, field.name ≠ name → field.Keeps get

section Says

variable {α : Type} {name : String} {read : Bytes → Except Fault (α × Bytes)} {get : σ → α}
  {given : List (String × Bytes)} {record final : σ} {missing value : α}

theorem Says.unique {other : α} (hvalue : Says given name read missing value)
    (hother : Says given name read missing other) : value = other := by
  unfold Says at hvalue hother
  cases hlookup : given.lookup name with
  | none =>
      simp only [hlookup] at hvalue hother
      rw [hvalue, hother]
  | some input =>
      simp only [hlookup] at hvalue hother
      obtain ⟨after, hread⟩ := hvalue
      obtain ⟨left, hleft⟩ := hother
      exact (Prod.mk.inj (Except.ok.inj (hread.symm.trans hleft))).1

theorem Field.of_keeps {β : Type} {reader : Reader β} {store : σ → β → σ}
    (hstore : ∀ record found, get (store record found) = get record) :
    (Field.of name reader store).Keeps get := by
  intro nesting record next input after hread
  obtain ⟨found, -, rfl⟩ := Field.of_read_eq_ok_iff.mp hread
  exact hstore record found

/-- Among the fields, the one called `name` is known. -/
theorem Holds.of {reader : Reader α} (store : σ → α → σ)
    (hown : ∀ field ∈ fields, field.name = name → field = .of name reader store)
    (hstore : ∀ record found, get (store record found) = found)
    (hkeeps : ∀ field ∈ fields, field.name ≠ name → field.Keeps get) :
    Holds fields nesting name (reader nesting) get where
  stores := by
    intro field hfield hname record next input after hread
    rw [hown field hfield hname] at hread
    obtain ⟨found, hfound, rfl⟩ := Field.of_read_eq_ok_iff.mp hread
    rw [hstore, hfound]
  succeeds := by
    intro field hfield hname input found after hread record
    rw [hown field hfield hname]
    exact ⟨_, Field.of_read_eq_ok_iff.mpr ⟨found, hread, rfl⟩⟩
  keeps := hkeeps

/-- After the members have been stored, each field holds what its member says. -/
theorem says_of_storeAll (hholds : Holds fields nesting name read get)
    (hdistinct : (given.map Prod.fst).Nodup)
    (hstore : storeAll fields nesting record given = some final) :
    Says given name read (get record) (get final) := by
  induction given generalizing record with
  | nil =>
      cases hstore
      rfl
  | cons member given ih =>
      obtain ⟨key, input⟩ := member
      rw [List.map_cons, List.nodup_cons] at hdistinct
      obtain ⟨next, hmember, hstore⟩ := Option.bind_eq_some_iff.mp hstore
      obtain ⟨field, hfind, left, hread⟩ := storeMember_eq_some_iff.mp hmember
      have hfield := List.mem_of_find?_eq_some hfind
      have hname : field.name = key := by simpa using List.find?_some hfind
      have hlater := ih hdistinct.2 hstore
      unfold Says at hlater ⊢
      by_cases hkey : key = name
      · have hnone : given.lookup name = none := by
          rw [List.lookup_eq_none_iff]
          rintro ⟨other, found⟩ hmem
          have hother : other ≠ key := by
            rintro rfl
            exact hdistinct.1 (List.mem_map.mpr ⟨_, hmem, rfl⟩)
          simpa [← hkey] using hother.symm
        simp only [hnone] at hlater
        rw [List.lookup_cons]
        simp only [hkey, BEq.rfl, hlater]
        exact ⟨left, hholds.stores field hfield (hname.trans hkey) hread⟩
      · have hskip : ((key, input) :: given).lookup name = given.lookup name := by
          rw [List.lookup_cons, beq_false_of_ne (Ne.symm hkey)]
        rw [hskip, ← hholds.keeps field hfield (by rwa [hname]) hread]
        exact hlater

/-- Members that can be read can be stored. -/
theorem exists_storeAll (hknown : ∀ member ∈ given, member.1 ∈ fields.map (·.name))
    (hreadable : ∀ member ∈ given, ∀ field ∈ fields, field.name = member.1 → ∀ record,
      ∃ next left, field.read nesting record member.2 = .ok (next, left)) (record : σ) :
    ∃ final, storeAll fields nesting record given = some final := by
  induction given generalizing record with
  | nil => exact ⟨record, rfl⟩
  | cons member given ih =>
      obtain ⟨key, input⟩ := member
      have hlater := fun other hother => hknown other (List.mem_cons_of_mem _ hother)
      have hreads := fun other hother => hreadable other (List.mem_cons_of_mem _ hother)
      have hkey : key ∈ fields.map (·.name) := hknown (key, input) List.mem_cons_self
      cases hfind : fields.find? (·.name = key) with
      | none => exact absurd hkey (find?_name_eq_none_iff.mp hfind)
      | some field =>
          have hname : field.name = key := by simpa using List.find?_some hfind
          obtain ⟨next, left, hread⟩ := hreadable (key, input) List.mem_cons_self field
            (List.mem_of_find?_eq_some hfind) hname record
          have hmember := storeMember_eq_some_iff.mpr ⟨field, hfind, left, hread⟩
          obtain ⟨final, hfinal⟩ := ih hlater hreads next
          exact ⟨final, by simpa [storeAll, hmember] using hfinal⟩

theorem lookup_of_mem {key : String} {input : Bytes} (hdistinct : (given.map Prod.fst).Nodup)
    (hmember : (key, input) ∈ given) : given.lookup key = some input := by
  obtain ⟨before, later, rfl⟩ := List.append_of_mem hmember
  rw [List.map_append, List.map_cons, List.nodup_append] at hdistinct
  refine List.lookup_eq_some_iff.mpr ⟨before, later, rfl, ?_⟩
  rintro ⟨other, found⟩ hbefore
  have hother : other ≠ key :=
    hdistinct.2.2 other (List.mem_map_of_mem hbefore) key List.mem_cons_self
  simpa using hother.symm

/-- A member that says something can be read into its field. -/
theorem Holds.readable (hholds : Holds fields nesting name read get)
    (hdistinct : (given.map Prod.fst).Nodup) (hvalue : Says given name read missing value) :
    ∀ member ∈ given, member.1 = name → ∀ field ∈ fields, field.name = member.1 → ∀ record,
      ∃ next left, field.read nesting record member.2 = .ok (next, left) := by
  rintro ⟨key, input⟩ hmember rfl field hfield hname record
  have hlookup : given.lookup key = some input := lookup_of_mem hdistinct hmember
  simp only [Says, hlookup] at hvalue
  obtain ⟨left, hread⟩ := hvalue
  obtain ⟨next, hnext⟩ := hholds.succeeds field hfield hname hread record
  exact ⟨next, left, hnext⟩

end Says

/-! ## Documents -/

/-- The members that a document with a record of these fields is given. -/
def Document (names : List String) (body : Bytes) (given : List (String × Bytes)) : Prop :=
  ∃ after, Given names body given after ∧ skipBlanks after = []

theorem Document.distinct {names : List String} {body : Bytes} {given : List (String × Bytes)}
    (hdocument : Document names body given) (hnodup : names.Nodup) :
    (given.map Prod.fst).Nodup := by
  obtain ⟨after, hgiven, -⟩ := hdocument
  exact hgiven.distinct hnodup

theorem Document.known {names : List String} {body : Bytes} {given : List (String × Bytes)}
    (hdocument : Document names body given) : ∀ member ∈ given, member.1 ∈ names := by
  obtain ⟨after, hgiven, -⟩ := hdocument
  exact hgiven.known

theorem read_eq_ok_iff {α : Type} {reader : Reader α} {body : Bytes} {value : α} :
    read reader body = .ok value ↔
      ∃ after, reader deepest body = .ok (value, after) ∧ skipBlanks after = [] := by
  have houtcome : ∀ outcome : Except Fault α,
      outcome.mapError (Fault.locate body) = .ok value ↔ outcome = .ok value := by
    intro outcome
    cases outcome <;> simp [Except.mapError]
  unfold read
  rw [houtcome, bind_eq_ok_iff]
  constructor
  · rintro ⟨⟨found, after⟩, hread, hend⟩
    dsimp only at hend
    split at hend
    · rename_i hblank
      cases hend
      exact ⟨after, hread, hblank⟩
    · contradiction
  · rintro ⟨after, hread, hblank⟩
    exact ⟨(value, after), hread, by simp [hblank]⟩

/-- The number of brackets that may be opened in a member of a document. -/
def memberNesting : Nat := deepest - 1

/-- A document is a record exactly when its members can be stored. -/
theorem read_readRecord_eq_ok_iff {name : String} {blank record : σ} {body : Bytes}
    (hfields : ∀ field ∈ fields, field.Agrees) (hnodup : (fields.map (·.name)).Nodup) :
    read (readRecord name fields blank) body = .ok record ↔
      ∃ given, Document (fields.map (·.name)) body given ∧
        storeAll fields memberNesting blank given = some record := by
  have hdeepest : deepest = memberNesting + 1 := rfl
  rw [read_eq_ok_iff, hdeepest]
  constructor
  · rintro ⟨after, hread, hblank⟩
    obtain ⟨given, hgiven, hstore⟩ := (readRecord_eq_ok_iff hfields hnodup).mp hread
    exact ⟨given, ⟨after, hgiven, hblank⟩, hstore⟩
  · rintro ⟨given, ⟨after, hgiven, hblank⟩, hstore⟩
    exact ⟨after, (readRecord_eq_ok_iff hfields hnodup).mpr ⟨given, hgiven, hstore⟩, hblank⟩

end Fields

/-- A document of a single field says what its member says. -/
theorem read_single_eq_ok_iff {α : Type} {recordName name : String} {reader : Reader α}
    (hreader : ∀ nesting, Agrees (reader nesting)) {blank value : α} {body : Bytes} :
    read (readRecord recordName [.of name reader fun _ value => value] blank) body =
        .ok value ↔
      ∃ given, Document [name] body given ∧
        Says given name (reader memberNesting) blank value := by
  have hholds : Holds [Field.of name reader fun _ value => value] memberNesting name
      (reader memberNesting) id :=
    .of (fun _ value => value) (by simp) (fun _ _ => rfl) (by simp)
  have hfields : ∀ field ∈ [Field.of name reader fun (_ : α) value => value], field.Agrees := by
    simpa using Field.of_agrees hreader
  have hnodup : [name].Nodup := by simp
  rw [read_readRecord_eq_ok_iff hfields hnodup]
  constructor
  · rintro ⟨given, hdocument, hstore⟩
    exact ⟨given, hdocument,
      says_of_storeAll hholds (hdocument.distinct hnodup) hstore⟩
  · rintro ⟨given, hdocument, hvalue⟩
    have hdistinct := hdocument.distinct hnodup
    obtain ⟨final, hstore⟩ := exists_storeAll hdocument.known (fun member hmember =>
      hholds.readable hdistinct hvalue member hmember
        (List.mem_singleton.mp (hdocument.known member hmember))) blank
    have hfinal : final = value := (says_of_storeAll hholds hdistinct hstore).unique hvalue
    exact ⟨given, hdocument, hfinal ▸ hstore⟩

end FreightPromotion.Json
