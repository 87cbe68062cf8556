import FreightPromotion.Proofs.Documents
import FreightPromotion.Proofs.Json.Carrying
import FreightPromotion.Proofs.Json.PrintedObjects
import FreightPromotion.Proofs.Members
import FreightPromotion.Proofs.Rendering

/-!
# What is carried through

The spec and the status of a promotion are free-form: they follow the server's schema, and the
client only reads them into values and prints these again.  What a text states
(`Promotion.States`) comes out as an object that presents the same (`Promotion.Presents`,
`presents_of_read`), whatever the order of the members, the blanks and the escapes, except that
each integer is what it is carried as.  So an integer that does not fit in 64 bits may come out as
another one (`integers_carried_through`).
-/

namespace FreightPromotion

open FreightPromotion.Json (Arrangement Carries Datum Denotes Document Holds IntegerAt IsObject
  Number NumeralAt Says Spells carried memberNesting)
open FreightPromotion.Text (Bytes encode)

/-! ## Members -/

/-- The member called `name` denotes the datum.  A null may be left out. -/
def Provides {ν : Type} (numeral : Bytes → ν → Bytes → Prop) (given : List (String × Bytes))
    (name : String) (datum : Datum ν) : Prop :=
  match given.lookup name with
  | none => datum = .null
  | some input => Denotes numeral input datum

/-- The value of the member called `name` has the datum.  A null may be left out. -/
def HasDatum {ν : Type} (stands : Number → ν → Prop) (members : List Json.Member) (name : String)
    (datum : Datum ν) : Prop :=
  match members.lookup name with
  | none => datum = .null
  | some value => Carries stands value datum

section Provides

variable {given : List (String × Bytes)} {name : String}

theorem Provides.unique {datum other : Datum ℚ} (hdatum : Provides NumeralAt given name datum)
    (hother : Provides NumeralAt given name other) : datum = other := by
  unfold Provides at hdatum hother
  split at hdatum <;> rename_i hlookup
  · rw [hlookup] at hother
    exact hdatum.trans hother.symm
  · rw [hlookup] at hother
    exact hdatum.determines hother

variable {ν : Type} {numeral : Bytes → ν → Bytes → Prop} {datum : Datum ν}

/-- Members that a record does not know do not count. -/
theorem provides_filter_mem_iff {names : List String} (hname : name ∈ names) :
    Provides numeral (given.filter (·.1 ∈ names)) name datum ↔
      Provides numeral given name datum := by
  rw [Provides, Provides, lookup_filter_mem hname]

/-- Where members are printed, each provides the datum that its value has. -/
theorem HasDatum.provides {stands : Number → ν → Prop} {arrangement : Arrangement} {depth : Nat}
    {members : List Json.Member} (hdatum : HasDatum stands members name datum)
    (hspells : Spells numeral stands) (hdue : arrangement.DueAs depth members given) :
    Provides numeral given name datum := by
  have hfound := Json.Matches.lookup hdue name
  unfold HasDatum at hdatum
  unfold Provides
  generalize given.lookup name = found? at hfound ⊢
  generalize members.lookup name = value? at hfound hdatum
  cases hfound with
  | none => exact hdatum
  | some hinput => exact (hdatum.shows hspells).of_dueAt hinput

end Provides

namespace Promotion

/-- The text is a promotion, and its spec and status denote these data, with integers for
numbers. -/
def States (text : Bytes) (spec status : Datum Int) : Prop :=
  ∃ given, Document ["metadata", "spec", "status"] text given ∧
    Provides IntegerAt given "spec" spec ∧ Provides IntegerAt given "status" status

/-- The output is an object, and its spec and status denote these data. -/
def Presents (output : Bytes) (spec status : Datum ℚ) : Prop :=
  ∃ members, IsObject output members ∧
    Provides NumeralAt members "spec" spec ∧ Provides NumeralAt members "status" status

/-- The output determines what it presents. -/
theorem Presents.unique {output : Bytes} {spec status otherSpec otherStatus : Datum ℚ}
    (hpresents : Presents output spec status) (hother : Presents output otherSpec otherStatus) :
    spec = otherSpec ∧ status = otherStatus := by
  obtain ⟨members, hobject, hspec, hstatus⟩ := hpresents
  obtain ⟨members', hobject', hspec', hstatus'⟩ := hother
  obtain rfl := hobject.unique hobject'
  exact ⟨hspec.unique hspec', hstatus.unique hstatus'⟩

/-- The promotion carries these data.  A status that is absent is a null. -/
structure Conveys (promotion : Promotion) (spec status : Datum ℚ) : Prop where
  proper : promotion.metadata.Proper
  carries_spec : Carries Number.HasValue promotion.spec spec
  carries_status : ∀ value ∈ promotion.status, Carries Number.HasValue value status
  status_absent : promotion.status = none → status = .null

/-! ## Reading -/

theorem holds_spec : Holds fields memberNesting "spec" (Json.readValue memberNesting) spec :=
  .of (fun promotion value => { promotion with spec := value }) (by simp [fields])
    (fun _ _ => rfl) (by simp [fields, Json.Field.of_keeps])

theorem holds_status :
    Holds fields memberNesting "status" (Json.readOptional Json.readValue memberNesting) status :=
  .of (fun promotion value => { promotion with status := value }) (by simp [fields])
    (fun _ _ => rfl) (by simp [fields, Json.Field.of_keeps])

section Reading

variable {given : List (String × Bytes)} {promotion : Promotion} {name : String}
  {datum : Datum Int}

theorem carries_of_says {value : Json.Value}
    (hfound : Says given name (Json.readValue memberNesting) .null value)
    (hdatum : Provides IntegerAt given name datum) :
    Carries Number.HasValue value (datum.map carried) := by
  unfold Says at hfound
  unfold Provides at hdatum
  split at hfound <;> rename_i hlookup <;> rw [hlookup] at hdatum
  · rw [hfound, hdatum]
    exact .null
  · obtain ⟨after, hread⟩ := hfound
    exact hdatum.isCarried hread

theorem carries_of_says_optional {value? : Option Json.Value}
    (hfound : Says given name (Json.readOptional Json.readValue memberNesting) none value?)
    (hdatum : Provides IntegerAt given name datum) :
    (∀ value ∈ value?, Carries Number.HasValue value (datum.map carried)) ∧
      (value? = none → datum.map carried = .null) := by
  unfold Says at hfound
  unfold Provides at hdatum
  split at hfound <;> rename_i hlookup <;> rw [hlookup] at hdatum
  · rw [hfound, hdatum]
    exact ⟨nofun, fun _ => rfl⟩
  · obtain ⟨after, hread⟩ := hfound
    cases value? with
    | none =>
        have hnull := hdatum.isCarried
          (Json.readValue_of_isNull memberNesting (Json.readOptional_eq_none_iff.mp hread))
        refine ⟨nofun, fun _ => ?_⟩
        generalize datum.map carried = other at hnull ⊢
        cases hnull
        rfl
    | some value =>
        have hvalue := hdatum.isCarried (Json.readOptional_readValue_eq_some_iff.mp hread).1
        exact ⟨fun _ hmem => Option.mem_some_iff.mp hmem ▸ hvalue, nofun⟩

/-- A promotion that was read carries what its text states. -/
theorem conveys_of_read {text : Bytes} {spec status : Datum Int}
    (hread : Json.read Promotion.read text = .ok promotion) (hstates : States text spec status) :
    promotion.Conveys (spec.map carried) (status.map carried) := by
  obtain ⟨given, hgiven, hspec, hstatus⟩ := hstates
  obtain ⟨after, hfound, -⟩ := Json.read_eq_ok_iff.mp hread
  obtain ⟨given', hgiven', hstore⟩ :=
    (Json.read_readRecord_eq_ok_iff fields_agree fields_nodup).mp hread
  obtain rfl := hgiven.unique hgiven'
  have hdistinct := hgiven.distinct fields_nodup
  have hspec := carries_of_says (Json.says_of_storeAll holds_spec hdistinct hstore) hspec
  have hstatus := carries_of_says_optional (Json.says_of_storeAll holds_status hdistinct hstore)
    hstatus
  exact ⟨(found_of_read hfound).metadata, hspec, hstatus.1, hstatus.2⟩

end Reading

/-! ## Printing -/

section Printing

variable {promotion : Promotion} {spec status : Datum ℚ}

theorem resourceMembers_lookup_spec :
    promotion.resourceMembers.lookup "spec" = (freeMember "spec" promotion.spec).lookup "spec" := by
  have hother : ("spec" = "status") = False := by decide
  simp [resourceMembers, List.lookup_append, lookup_optionalMember, hother, List.lookup_cons]

theorem resourceMembers_lookup_status :
    promotion.resourceMembers.lookup "status" = promotion.status := by
  have hfree : (freeMember "spec" promotion.spec).lookup "status" = none := by
    refine Option.eq_none_iff_forall_ne_some.mpr fun value hvalue => ?_
    exact absurd (lookup_freeMember_eq_some_iff.mp hvalue).1 (by decide)
  simp [resourceMembers, List.lookup_append, lookup_optionalMember, hfree, List.lookup_cons]

theorem Conveys.ends (hconveys : promotion.Conveys spec status) :
    ∀ member ∈ promotion.resourceMembers, Arrangement.indented.Ends 1 member.2 := by
  have hmetadata : Arrangement.indented.Reads (Metadata.read 2) 1 promotion.metadata.document
      promotion.metadata :=
    Metadata.reads_document hconveys.proper
  simp only [resourceMembers, List.forall_mem_cons, List.forall_mem_append]
  exact ⟨Arrangement.indented.ends_text apiVersion, Arrangement.indented.ends_text kind,
    hmetadata.ends (Metadata.regular_read 2),
    forall_mem_freeMember ((hconveys.carries_spec.shows Json.spells_hasValue).ends 1),
    forall_mem_optionalMember fun value hvalue =>
      ((hconveys.carries_status value hvalue).shows Json.spells_hasValue).ends 1⟩

theorem Conveys.hasDatum_spec (hconveys : promotion.Conveys spec status) :
    HasDatum Number.HasValue promotion.resourceMembers "spec" spec := by
  have hspec := hconveys.carries_spec
  unfold HasDatum
  rw [resourceMembers_lookup_spec]
  by_cases hnull : promotion.spec = .null
  · -- A null is left out.
    rw [hnull] at hspec ⊢
    cases hspec
    rfl
  · rw [lookup_freeMember_eq_some_iff.mpr ⟨rfl, rfl, hnull⟩]
    exact hspec

theorem Conveys.hasDatum_status (hconveys : promotion.Conveys spec status) :
    HasDatum Number.HasValue promotion.resourceMembers "status" status := by
  unfold HasDatum
  rw [resourceMembers_lookup_status]
  split <;> rename_i hstatus
  · exact hconveys.status_absent hstatus
  · exact hconveys.carries_status _ hstatus

/-- A promotion is shown as an object that denotes what it carries. -/
theorem Conveys.presents (hconveys : promotion.Conveys spec status) :
    Presents (rendering (some .json) [promotion]) spec status := by
  obtain ⟨given, hobject, hdue⟩ :=
    Arrangement.indented.isObject_printed Json.isBlank_of_mem_lineFeed hconveys.ends
  have hprinted : rendering (some .json) [promotion] =
      encode (Json.Value.object promotion.resourceMembers).pretty ++ encode "\n" := by
    rw [← Text.encode_append]
    exact List.flatMap_singleton ..
  rw [Presents, hprinted]
  exact ⟨given, hobject, hconveys.hasDatum_spec.provides Json.spells_hasValue hdue,
    hconveys.hasDatum_status.provides Json.spells_hasValue hdue⟩

end Printing

end Promotion

/-! ## From the text to the output -/

open Promotion (Presents States)

/-- A document of a spec and a status states the integers of both. -/
theorem states_document {text : Bytes} {specValue statusValue : Json.Value}
    {spec status : Datum Int}
    (htext : text =
      encode (Json.Value.object [("spec", specValue), ("status", statusValue)]).compact)
    (hspec : Carries Number.IsInteger specValue spec)
    (hstatus : Carries Number.IsInteger statusValue status) : States text spec status := by
  have hends : ∀ member ∈ [("spec", specValue), ("status", statusValue)],
      Arrangement.compact.Ends 1 member.2 := by
    simp only [List.forall_mem_cons]
    exact ⟨(hspec.shows Json.spells_isInteger).ends 1, (hstatus.shows Json.spells_isInteger).ends 1,
      nofun⟩
  obtain ⟨given, hobject, hdue⟩ :=
    Arrangement.compact.isObject_printed (List.forall_mem_nil _) hends
  rw [List.append_nil, show encode (Arrangement.compact.text 0 _) = text from htext.symm] at hobject
  have hdistinct : (given.map Prod.fst).Nodup := by
    rw [Json.Matches.keys hdue]
    simp
  have hspec : HasDatum Number.IsInteger [("spec", specValue), ("status", statusValue)] "spec"
      spec := hspec
  have hstatus : HasDatum Number.IsInteger [("spec", specValue), ("status", statusValue)] "status"
      status := hstatus
  refine ⟨_, (hobject.document_iff hdistinct).mpr rfl, ?_, ?_⟩
  · rw [provides_filter_mem_iff (by decide)]
    exact hspec.provides Json.spells_isInteger hdue
  · rw [provides_filter_mem_iff (by decide)]
    exact hstatus.provides Json.spells_isInteger hdue

/-- A promotion that was read is shown as what its text states, with each integer as it is
carried. -/
theorem presents_of_read {text : Bytes} {promotion : Promotion} {spec status : Datum Int}
    (hread : Json.read Promotion.read text = .ok promotion) (hstates : States text spec status) :
    let shown := (Presentation.fresh (some .json)).show [promotion] .unlimited
    shown.2.2 = .ok () ∧ Presents shown.2.1.written (spec.map carried) (status.map carried) := by
  intro shown
  have hshown : shown.2 = ({ written := rendering (some .json) [promotion] }, .ok ()) :=
    Presentation.show_fresh (some .json) [promotion] []
  rw [hshown]
  exact ⟨rfl, (Promotion.conveys_of_read hread hstates).presents⟩

/-- The integers in a spec and a status come out as what each of them is carried as, and nothing
else changes.  So the data come out as they are exactly if each integer is carried as itself.  All
that fit in 64 bits are, and of the others only multiples of a hundred. -/
theorem integers_carried_through {text : Bytes} {promotion : Promotion} {spec status : Datum Int}
    (hread : Json.read Promotion.read text = .ok promotion) (hstates : States text spec status) :
    let shown := (Presentation.fresh (some .json)).show [promotion] .unlimited
    shown.2.2 = .ok () ∧
      Presents shown.2.1.written (spec.map carried) (status.map carried) ∧
      (Presents shown.2.1.written (spec.map (↑)) (status.map (↑)) ↔
        ∀ value ∈ spec.numbers ++ status.numbers, carried value = value) ∧
      (∀ value, Json.InRange value → carried value = value) ∧
      ∀ value, ¬ Json.InRange value → carried value = value → 100 ∣ value := by
  intro shown
  obtain ⟨hsuccess, hpresents⟩ := presents_of_read hread hstates
  refine ⟨hsuccess, hpresents, ?_, fun value => Json.carried_of_inRange,
    fun value hrange hcarried => Json.hundred_dvd_of_carried hcarried hrange⟩
  rw [List.forall_mem_append, ← Datum.map_eq_map_iff, ← Datum.map_eq_map_iff]
  constructor
  · exact fun hexact => hpresents.unique hexact
  · rintro ⟨hspec, hstatus⟩
    rwa [← hspec, ← hstatus]

/-- The largest and the least integers that fit come out as they are, and a larger one with zeros at
its end. -/
theorem largest_integers_stay_exact :
    let text := encode ("\x7b\"spec\":[18446744073709551615,-9223372036854775808,"
      ++ "100000000000000000000],\"status\":\x7b\"attempts\":0,\"freight\":null\x7d\x7d")
    let spec : Datum Int :=
      .array [.number 18446744073709551615, .number (-9223372036854775808), .number (10 ^ 20)]
    let status : Datum Int := .object [("attempts", .number 0), ("freight", .null)]
    ∃ promotion, Json.read Promotion.read text = .ok promotion ∧ States text spec status ∧
      Presents ((Presentation.fresh (some .json)).show [promotion] .unlimited).2.1.written
        (spec.map (↑)) (status.map (↑)) := by
  intro text spec status
  have hspec : Carries Number.IsInteger (.array [.number (.integer 18446744073709551615),
      .number (.integer (-9223372036854775808)), .number (.integer (10 ^ 20))]) spec :=
    .of_forall₂ (.cons (.number rfl) (.cons (.number rfl) (.cons (.number rfl) .nil)))
  have hstatus : Carries Number.IsInteger
      (.object [("attempts", .number (.integer 0)), ("freight", .null)]) status :=
    .of_matches (by decide) (.cons ⟨rfl, .number rfl⟩ (.cons ⟨rfl, .null⟩ .nil))
  have hstates : States text spec status :=
    states_document (congrArg encode (by decide +kernel)) hspec hstatus
  obtain ⟨promotion, hread⟩ := exists_of_isOk
    (show (Json.read Promotion.read text).isOk = true by decide +kernel)
  obtain ⟨-, -, hexact, -, -⟩ := integers_carried_through hread hstates
  refine ⟨promotion, hread, hstates, hexact.mpr ?_⟩
  decide +kernel

/-- An integer of twenty digits that does not fit comes out rounded. -/
theorem unfitting_integer_is_rounded :
    let text := encode "\x7b\"spec\":18446744073709551617,\"status\":null\x7d"
    ∃ promotion, Json.read Promotion.read text = .ok promotion ∧
      States text (.number 18446744073709551617) .null ∧
      Presents ((Presentation.fresh (some .json)).show [promotion] .unlimited).2.1.written
        (.number 18446744073709552000) .null ∧
      ¬ Presents ((Presentation.fresh (some .json)).show [promotion] .unlimited).2.1.written
        (.number 18446744073709551617) .null := by
  intro text
  have hspec : Carries Number.IsInteger (.number (.integer 18446744073709551617))
      (.number 18446744073709551617) := .number rfl
  have hstates : States text (.number 18446744073709551617) .null :=
    states_document (congrArg encode (by decide +kernel)) hspec .null
  obtain ⟨promotion, hread⟩ := exists_of_isOk
    (show (Json.read Promotion.read text).isOk = true by decide +kernel)
  have hcarried : carried 18446744073709551617 = 18446744073709552000 := by decide +kernel
  obtain ⟨-, hpresents⟩ := presents_of_read hread hstates
  rw [Datum.map, Datum.map, hcarried] at hpresents
  refine ⟨promotion, hread, hstates, hpresents, fun hexact => ?_⟩
  have hequal := Datum.number.inj (hpresents.unique hexact).1
  exact absurd hequal (by norm_num)

end FreightPromotion
