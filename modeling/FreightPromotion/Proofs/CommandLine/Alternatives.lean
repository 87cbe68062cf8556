import FreightPromotion.Proofs.CommandLine.Spelling
import FreightPromotion.Proofs.Violations

/-!
# Alternatives on the command line and in validation

That one of two options is needed and that they exclude each other is checked twice: when the
command line is read, where an option counts as given even if its value is empty, and when the
options are validated, where an empty text counts as none.

Whatever the reader accepts has exactly one of the alternatives (`exists_filter_eq_singleton`).
So validation never finds a conflict, and it misses a choice exactly if the one value that was
given is empty (`accepted_alternatives_validate`).
-/

namespace FreightPromotion.CommandLine

/-- Exactly one of two parameters was given, once, with this value. -/
inductive GivesOne (given : List (Parameter × String)) (first second : Parameter)
    (value : String) : Prop
  | first (hgiven : given.filter (·.1 ∈ [first, second]) = [(first, value)])
  | second (hgiven : given.filter (·.1 ∈ [first, second]) = [(second, value)])

/-! ## The reader's check -/

section Check

variable {reading : Reading} {verb : Verb} {alternatives : List Parameter}
  {first second : Parameter}

theorem Reading.check_eq_ok (hcheck : reading.check verb = .ok ()) :
    reading.conflict? verb = none ∧ reading.unmet verb = [] := by
  unfold Reading.check at hcheck
  split at hcheck
  · contradiction
  · exact ⟨‹_›, ‹_›⟩
  · contradiction

/-- Something was given for each requirement. -/
theorem Reading.exists_has_of_check (hcheck : reading.check verb = .ok ())
    (hrequired : alternatives ∈ verb.requirements) :
    ∃ parameter ∈ alternatives, reading.has parameter = true := by
  have hmet := List.filter_eq_nil_iff.mp (Reading.check_eq_ok hcheck).2 alternatives hrequired
  simpa using hmet

theorem Reading.has_eq_true_iff {parameter : Parameter} :
    reading.has parameter = true ↔ ∃ value, (parameter, value) ∈ reading.values := by
  simp [Reading.has]

/-- No two alternatives of a requirement were given. -/
theorem Reading.eq_of_check (hcheck : reading.check verb = .ok ())
    (hrequired : alternatives ∈ verb.requirements) (hfirst : first ∈ alternatives)
    (hsecond : second ∈ alternatives) (hgivenFirst : reading.has first = true)
    (hgivenSecond : reading.has second = true) : second = first := by
  by_contra hdiffer
  obtain ⟨value, hvalue⟩ := Reading.has_eq_true_iff.mp hgivenFirst
  have hnone := List.findSome?_eq_none_iff.mp (Reading.check_eq_ok hcheck).1 _ hvalue
  rw [Option.map_eq_none_iff, List.find?_eq_none] at hnone
  refine hnone second ?_ (by simp [hdiffer, hgivenSecond])
  exact List.mem_flatten.mpr ⟨alternatives, by simpa [hrequired] using hfirst, hsecond⟩

/-- Of the alternatives of a requirement exactly one was given, and it has one value. -/
theorem Reading.exists_filter_eq_singleton (hcheck : reading.check verb = .ok ())
    (hdistinct : reading.Distinct) (hrequired : alternatives ∈ verb.requirements) :
    ∃ parameter ∈ alternatives, ∃ value,
      reading.values.filter (·.1 ∈ alternatives) = [(parameter, value)] := by
  obtain ⟨parameter, halternative, hhas⟩ := Reading.exists_has_of_check hcheck hrequired
  obtain ⟨value, hvalue⟩ := Reading.has_eq_true_iff.mp hhas
  refine ⟨parameter, halternative, value, ?_⟩
  have hnodup : (reading.values.filter (·.1 ∈ alternatives)).Nodup :=
    (List.Nodup.of_map _ hdistinct).filter _
  -- An entry for an alternative is for the one that was given, which has no other entry.
  apply List.perm_singleton.mp
  rw [List.perm_ext_iff_of_nodup hnodup (List.nodup_singleton _)]
  intro entry
  rw [List.mem_filter, decide_eq_true_iff, List.mem_singleton]
  constructor
  · rintro ⟨hentry, hother⟩
    have hsame : entry.1 = parameter :=
      Reading.eq_of_check hcheck hrequired halternative hother hhas
        (Reading.has_eq_true_iff.mpr ⟨entry.2, hentry⟩)
    exact List.inj_on_of_nodup_map hdistinct hentry hvalue hsame
  · rintro rfl
    exact ⟨hvalue, halternative⟩

/-- The same for two alternatives. -/
theorem Reading.exists_givesOne (hcheck : reading.check verb = .ok ())
    (hdistinct : reading.Distinct) (hrequired : [first, second] ∈ verb.requirements) :
    ∃ value, GivesOne reading.values first second value := by
  obtain ⟨parameter, halternative, value, hgiven⟩ :=
    Reading.exists_filter_eq_singleton hcheck hdistinct hrequired
  rcases List.mem_pair.mp halternative with rfl | rfl
  · exact ⟨value, .first hgiven⟩
  · exact ⟨value, .second hgiven⟩

end Check

/-! ## What validation makes of it -/

section Texts

variable {given : List (Parameter × String)} {first second : Parameter} {value : String}

/-- The text that stands for a parameter, which is empty if it was not given. -/
def textOf (given : List (Parameter × String)) (parameter : Parameter) : String :=
  (given.lookup parameter).getD ""

/-- One of the two texts is the value and the other one is empty. -/
theorem GivesOne.texts (hone : GivesOne given first second value) (hdiffer : first ≠ second) :
    (textOf given first = value ∧ textOf given second = "") ∨
      (textOf given first = "" ∧ textOf given second = value) := by
  have hfirst : (given.filter (·.1 ∈ [first, second])).lookup first = given.lookup first :=
    lookup_filter_mem (by simp)
  have hsecond : (given.filter (·.1 ∈ [first, second])).lookup second = given.lookup second :=
    lookup_filter_mem (by simp)
  unfold textOf
  rw [← hfirst, ← hsecond]
  cases hone with
  | first hgiven =>
      rw [hgiven]
      left
      simp [List.lookup_cons, beq_false_of_ne hdiffer.symm]
  | second hgiven =>
      rw [hgiven]
      right
      simp [List.lookup_cons, beq_false_of_ne hdiffer]

theorem GivesOne.not_both (hone : GivesOne given first second value) (hdiffer : first ≠ second) :
    ¬ (textOf given first ≠ "" ∧ textOf given second ≠ "") := by
  rintro ⟨hfirst, hsecond⟩
  rcases hone.texts hdiffer with ⟨-, hnone⟩ | ⟨hnone, -⟩
  · exact hsecond hnone
  · exact hfirst hnone

theorem GivesOne.neither_iff (hone : GivesOne given first second value) (hdiffer : first ≠ second) :
    textOf given first = "" ∧ textOf given second = "" ↔ value = "" := by
  rcases hone.texts hdiffer with ⟨hvalue, hnone⟩ | ⟨hnone, hvalue⟩
  · rw [hvalue, and_iff_left hnone]
  · rw [hvalue, and_iff_right hnone]

end Texts

/-- What is accepted for a promotion: options, the verb and options, perhaps with two dashes at
the end.  For the freight one of the two options was given, once, and so it was for the stage.

Whatever the settings are, validation finds no conflict in what was given, and finds that the
freight or the stage is missing exactly if the one value that was given for it is empty. -/
theorem accepted_alternatives_validate {usage : Usage} {words : List String} {line : Line}
    {arguments : PromoteArguments} (hread : read usage words = .ok line)
    (hpromote : line.command = .promote arguments) :
    ∃ before rest dashes outer given freight stage,
      words = before ++ "promote" :: (rest ++ dashes) ∧ (dashes = [] ∨ dashes = ["--"]) ∧
        Spells usage .start none before outer ∧ Spells usage .promote none rest given ∧
        arguments = Reading.promoteArguments { values := given } ∧
        GivesOne given .freight .freightAlias freight ∧
        GivesOne given .stage .subscribersOf stage ∧
        ∀ settings : Settings,
          let options := arguments.options settings
          ¬ options.Reports .conflictingFreight ∧ ¬ options.Reports .conflictingSelector ∧
            (options.Reports .missingFreight ↔ freight = "") ∧
            (options.Reports .missingSelector ↔ stage = "") := by
  obtain ⟨before, rest, dashes, outer, last, hwords, hdashes, houter, hspells, hdistinct, hcheck,
    rfl⟩ := read_promote hread hpromote
  obtain ⟨freight, hfreight⟩ : ∃ value, GivesOne last.values .freight .freightAlias value :=
    Reading.exists_givesOne hcheck hdistinct (by decide)
  obtain ⟨stage, hstage⟩ : ∃ value, GivesOne last.values .stage .subscribersOf value :=
    Reading.exists_givesOne hcheck hdistinct (by decide)
  refine ⟨before, rest, dashes, outer, last.values, freight, stage, hwords, hdashes, houter,
    hspells, rfl, hfreight, hstage, fun settings => ?_⟩
  intro options
  -- The options have the texts of what was given.
  have hbothFreight : ¬ (options.freightName ≠ "" ∧ options.freightAlias ≠ "") :=
    hfreight.not_both (by decide)
  have hbothStage : ¬ (options.targetStage ≠ "" ∧ options.subscribersOfStage ≠ "") :=
    hstage.not_both (by decide)
  have hnoFreight : options.freightName = "" ∧ options.freightAlias = "" ↔ freight = "" :=
    hfreight.neither_iff (by decide)
  have hnoStage : options.targetStage = "" ∧ options.subscribersOfStage = "" ↔ stage = "" :=
    hstage.neither_iff (by decide)
  simp only [Options.reports_iff]
  exact ⟨by simpa [Options.breaks_iff] using hbothFreight,
    by simpa [Options.breaks_iff] using hbothStage,
    by simpa [Options.breaks_iff] using hnoFreight, by simpa [Options.breaks_iff] using hnoStage⟩

/-- An empty argument after its option gets past the reader, and validation reports that the
freight is missing. -/
theorem empty_alternative_reported_missing :
    let words := ["--server", "http://h", "promote", "-p=x", "--freight", "", "--subscribers-of=qa"]
    let arguments : PromoteArguments :=
      { project := some "x", freight := some "", subscribersOf := some "qa" }
    ∃ line, read {} words = .ok line ∧ line.command = .promote arguments ∧
      ∀ settings : Settings,
        let options := arguments.options settings
        options.Reports .missingFreight ∧ ¬ options.Reports .missingSelector := by
  intro words arguments
  let line : Line :=
    { values := [(.server, "http://h"), (.project, "x"), (.freight, ""), (.subscribersOf, "qa")]
      command := .promote arguments }
  have hread : read {} words = .ok line := rfl
  obtain ⟨-, -, -, -, given, freight, stage, -, -, -, -, harguments, hfreight, hstage, hvalidate⟩ :=
    accepted_alternatives_validate hread rfl
  have htexts : ∀ parameter field, (Reading.value? { values := given } parameter = field) →
      textOf given parameter = field.getD "" := fun parameter field hfield => hfield ▸ rfl
  have hempty : freight = "" :=
    (hfreight.neither_iff (by decide)).mp
      ⟨htexts _ _ (congrArg PromoteArguments.freight harguments).symm,
        htexts _ _ (congrArg PromoteArguments.freightAlias harguments).symm⟩
  have hnamed : stage ≠ "" := by
    intro hstageEmpty
    have hsubscribers := ((hstage.neither_iff (by decide)).mpr hstageEmpty).2
    rw [htexts _ _ (congrArg PromoteArguments.subscribersOf harguments).symm] at hsubscribers
    exact absurd hsubscribers (by decide)
  refine ⟨line, hread, rfl, fun settings => ?_⟩
  obtain ⟨-, -, hmissingFreight, hmissingStage⟩ := hvalidate settings
  exact ⟨hmissingFreight.mpr hempty, fun hreports => hnamed (hmissingStage.mp hreports)⟩

end FreightPromotion.CommandLine
