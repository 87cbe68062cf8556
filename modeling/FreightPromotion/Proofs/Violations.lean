import FreightPromotion.Proofs.Text.Lines
import FreightPromotion.Proofs.Text.Quoted
import FreightPromotion.Proofs.Validation

/-!
# Rules that options break

Each rule has a condition of its own on the options (`Options.Breaks`), and validation
reports the rules whose condition holds: all of them, each once, in the order of
`Violation.position` (`validation_reports_broken_rules`).  There is always one to report
when validation refuses, because the choice of the freight or the selector can only fail
if a rule about it is broken.

The report has a line for each rule that is broken.  The text of the user that it holds, the
name of a format, is quoted and so can neither end its line nor end the quotes before they
close (`reports_tell_violations_apart`).
-/

namespace FreightPromotion

/-! ## Conditions of the rules -/

/-- What breaks each rule. -/
@[mk_iff]
inductive Options.Breaks (options : Options) : Violation → Prop
  | missingProject (hproject : options.project = "") : options.Breaks .missingProject
  | missingFreight (hname : options.freightName = "") (halias : options.freightAlias = "") :
      options.Breaks .missingFreight
  | missingSelector (hstage : options.targetStage = "")
      (hsubscribers : options.subscribersOfStage = "") : options.Breaks .missingSelector
  | conflictingFreight (hname : options.freightName ≠ "") (halias : options.freightAlias ≠ "") :
      options.Breaks .conflictingFreight
  | conflictingSelector (hstage : options.targetStage ≠ "")
      (hsubscribers : options.subscribersOfStage ≠ "") : options.Breaks .conflictingSelector
  | unsupportedFormat {label : String} (hasked : options.outputFormat = some label)
      (hlabel : label ≠ "") (hprinter : ¬ ∃ printer, Printer.ofLabel label = .ok printer) :
      options.Breaks (.unsupportedFormat label)

/-- Where a rule stands in the order in which rules are checked. -/
def Violation.position : Violation → Nat
  | .missingProject => 0
  | .missingFreight => 1
  | .missingSelector => 2
  | .conflictingFreight => 3
  | .conflictingSelector => 4
  | .unsupportedFormat _ => 5

section Choice

variable {α : Type} {first second : String} {left right : String → α}

theorem Choice.of_eq_neither_iff :
    Choice.of first second left right = .neither ↔ first = "" ∧ second = "" := by
  rw [← @given?_eq_none_iff first, ← @given?_eq_none_iff second, Choice.of]
  cases given? first <;> cases given? second <;> simp

theorem Choice.of_eq_both_iff :
    Choice.of first second left right = .both ↔ first ≠ "" ∧ second ≠ "" := by
  rw [Ne, Ne, ← @given?_eq_none_iff first, ← @given?_eq_none_iff second,
    Choice.of]
  cases given? first <;> cases given? second <;> simp

theorem Choice.exists_of_eq_one_iff :
    (∃ value, Choice.of first second left right = .one value) ↔ Xor (first ≠ "") (second ≠ "") := by
  simp only [Choice.of_eq_one_iff, Xor, not_not]
  constructor
  · rintro ⟨_, ⟨hfirst, hsecond, rfl⟩ | ⟨hfirst, hsecond, rfl⟩⟩
    · exact .inl ⟨hfirst, hsecond⟩
    · exact .inr ⟨hsecond, hfirst⟩
  · rintro (⟨hfirst, hsecond⟩ | ⟨hsecond, hfirst⟩)
    · exact ⟨_, .inl ⟨hfirst, hsecond, rfl⟩⟩
    · exact ⟨_, .inr ⟨hfirst, hsecond, rfl⟩⟩

end Choice

theorem mem_violationUnless_iff {holds : Bool} {violation reported : Violation} :
    reported ∈ violationUnless holds violation ↔ holds = false ∧ reported = violation := by
  cases holds <;> simp [violationUnless]

/-- Validation accepts the names that a printer is found for. -/
theorem Printer.exists_ofLabel_iff {label : String} :
    (∃ printer, Printer.ofLabel label = .ok printer) ↔ isSupportedFormat label = true := by
  rw [isSupportedFormat_iff]
  constructor
  · rintro ⟨printer, hprinter⟩
    obtain ⟨format, hlabel, -⟩ := Printer.ofLabel_eq_ok_iff.mp hprinter
    exact ⟨format, hlabel⟩
  · rintro ⟨format, hlabel⟩
    exact ⟨.ofFormat format, Printer.ofLabel_eq_ok_iff.mpr ⟨format, hlabel, rfl⟩⟩

section Violations

variable {options : Options} {violation : Violation} {violations : List Violation}

theorem Options.unsupportedFormat?_eq_some_iff {label : String} :
    options.unsupportedFormat? = some label ↔
      options.outputFormat = some label ∧ label ≠ "" ∧
        ¬ ∃ printer, Printer.ofLabel label = .ok printer := by
  rw [Printer.exists_ofLabel_iff, Options.unsupportedFormat?, Option.filter_eq_some_iff,
    Options.format?, Option.bind_eq_some_iff]
  simp only [given?_eq_some_iff]
  constructor
  · rintro ⟨⟨asked, hasked, hlabel, rfl⟩, hnone⟩
    exact ⟨hasked, hlabel, by simpa using hnone⟩
  · rintro ⟨hasked, hlabel, hnone⟩
    exact ⟨⟨label, hasked, hlabel, rfl⟩, by simpa using hnone⟩

/-- The formats that break no rule are those that there is a printer for. -/
theorem Options.unsupportedFormat?_eq_none_iff :
    options.unsupportedFormat? = none ↔
      options.outputFormat = none ∨ options.outputFormat = some "" ∨
        ∃ label printer, options.outputFormat = some label ∧
          Printer.ofLabel label = .ok printer := by
  simp only [Option.eq_none_iff_forall_ne_some, ne_eq, Options.unsupportedFormat?_eq_some_iff]
  cases options.outputFormat with
  | none => simp
  | some label =>
      rcases eq_or_ne label "" with rfl | hlabel
      · simp
      · simp [hlabel]

/-- The violations are the rules that are broken. -/
theorem Options.mem_violations_iff : violation ∈ options.violations ↔ options.Breaks violation := by
  simp only [Options.violations, List.mem_append, mem_violationUnless_iff, Option.mem_toList,
    Option.map_eq_some_iff, Options.unsupportedFormat?_eq_some_iff, Bool.not_eq_false',
    String.isEmpty_iff, decide_eq_false_iff_not, not_not, Options.breaks_iff]
  simp only [Options.freight, Options.selector, Choice.of_eq_neither_iff, Choice.of_eq_both_iff]
  -- Both sides list the conditions of the rules in the order of the checks.
  simp only [or_assoc, and_assoc, eq_comm]

/-- Whatever is left out, what remains is in the order of the checks. -/
theorem Options.pairwise_violations (options : Options) :
    options.violations.Pairwise fun earlier later => earlier.position < later.position := by
  have hpart : ∀ (holds : Bool) (violation : Violation),
      (violationUnless holds violation).Sublist [violation] := by
    intro holds violation
    cases holds <;> simp [violationUnless]
  have hparts : options.violations.Sublist
      ([Violation.missingProject] ++ [Violation.missingFreight] ++ [Violation.missingSelector] ++
        [Violation.conflictingFreight] ++ [Violation.conflictingSelector] ++
          (options.unsupportedFormat?.map Violation.unsupportedFormat).toList) :=
    (((((hpart _ _).append (hpart _ _)).append (hpart _ _)).append (hpart _ _)).append
      (hpart _ _)).append (List.Sublist.refl _)
  refine List.Pairwise.sublist hparts ?_
  cases options.unsupportedFormat? <;> simp [Violation.position]

/-- Validation refuses options exactly when there is something to report. -/
theorem Options.validate_eq_error_iff :
    options.validate = .error violations ↔ violations = options.violations ∧ violations ≠ [] := by
  unfold Options.validate
  constructor
  · intro hvalidate
    split at hvalidate
    · contradiction
    · rename_i hchoices
      obtain rfl := Except.error.inj hvalidate
      refine ⟨rfl, fun hnone => ?_⟩
      -- Without a violation both choices are made, and the request is there.
      obtain ⟨-, ⟨freight, hfreight⟩, ⟨selector, hselector⟩, -⟩ :=
        Options.violations_eq_nil_iff.mp hnone
      exact hchoices freight selector hnone hfreight hselector
  · rintro ⟨rfl, hsome⟩
    split
    · rename_i hnone _ _
      exact absurd hnone hsome
    · rfl

/-- Validation refuses the options, and reports this among the reasons. -/
def Options.Reports (options : Options) (violation : Violation) : Prop :=
  ∃ violations, options.validate = .error violations ∧ violation ∈ violations

theorem Options.reports_iff : options.Reports violation ↔ options.Breaks violation := by
  rw [← Options.mem_violations_iff]
  constructor
  · rintro ⟨violations, hvalidate, hmem⟩
    exact (Options.validate_eq_error_iff.mp hvalidate).1 ▸ hmem
  · intro hmem
    exact ⟨_, Options.validate_eq_error_iff.mpr ⟨rfl, List.ne_nil_of_mem hmem⟩, hmem⟩

theorem Options.exists_validate_eq_ok_iff :
    (∃ request, options.validate = .ok request) ↔ options.violations = [] := by
  cases hvalidate : options.validate with
  | error violations =>
      obtain ⟨rfl, hsome⟩ := Options.validate_eq_error_iff.mp hvalidate
      simp [hsome]
  | ok request =>
      have hnone : options.violations = [] := by
        by_contra hsome
        rw [Options.validate_eq_error_iff.mpr ⟨rfl, hsome⟩] at hvalidate
        contradiction
      simp [hnone]

end Violations

/-! ## Formats and their printers -/

theorem Printer.exists_ofLabel_iff_mem {label : String} :
    (∃ printer, Printer.ofLabel label = .ok printer) ↔ label ∈ ["json", "yaml", "name"] := by
  rw [Printer.exists_ofLabel_iff, isSupportedFormat, List.contains_iff_mem, supportedFormats]

theorem Violation.message_unsupportedFormat (label : String) :
    (unsupportedFormat label).message =
      "unsupported output format " ++ Text.quote label ++ " (allowed: json, yaml, name)" :=
  rfl

/-- The words for a format without a printer, which list the names that are accepted, are those
of validation. -/
theorem Printer.message_of_ofLabel {label : String} {failure : Failure}
    (hprinter : Printer.ofLabel label = .error failure) :
    failure.message = (Violation.unsupportedFormat label).message := by
  have hformats : " (allowed: " ++ (", ".intercalate supportedFormats ++ ")") =
      " (allowed: json, yaml, name)" := by
    decide
  unfold Printer.ofLabel at hprinter
  split at hprinter
  case h_4 =>
    rw [← Except.error.inj hprinter, Failure.message_ofMessage, Violation.message_unsupportedFormat]
    simp only [String.append_assoc, hformats]
  all_goals contradiction

/-- What validation answers.  It accepts options that say what is needed and nothing that
excludes it, and the request holds what they say.  Otherwise it reports the rules that are
broken and nothing else, in the order of the checks, each of them once and at least one.

A format that it does not accept has no printer, and the words for that are those of the
printers. -/
theorem validation_reports_broken_rules (options : Options) :
    ((∃ request, options.validate = .ok request) ↔
      options.project ≠ "" ∧
        Xor (options.freightName ≠ "") (options.freightAlias ≠ "") ∧
        Xor (options.targetStage ≠ "") (options.subscribersOfStage ≠ "") ∧
        (options.outputFormat = none ∨ options.outputFormat = some "" ∨
          ∃ label printer, options.outputFormat = some label ∧
            Printer.ofLabel label = .ok printer)) ∧
      (∀ request, options.validate = .ok request → options.Describe request) ∧
      (∀ violations, options.validate = .error violations →
        violations ≠ [] ∧ violations.Nodup ∧
          violations.Pairwise (fun earlier later => earlier.position < later.position) ∧
          ∀ violation, violation ∈ violations ↔ options.Breaks violation) ∧
      ∀ label,
        let text :=
          "unsupported output format " ++ Text.quote label ++ " (allowed: json, yaml, name)"
        ((∃ printer, Printer.ofLabel label = .ok printer) ↔ label ∈ ["json", "yaml", "name"]) ∧
          (Violation.unsupportedFormat label).message = text ∧
          ∀ failure, Printer.ofLabel label = .error failure → failure.message = text := by
  refine ⟨?_, ?_, ?_, ?_⟩
  · rw [Options.exists_validate_eq_ok_iff, Options.violations_eq_nil_iff,
      Options.unsupportedFormat?_eq_none_iff]
    exact and_congr_right fun _ => and_congr Choice.exists_of_eq_one_iff
      (and_congr Choice.exists_of_eq_one_iff Iff.rfl)
  · exact fun request hvalidate => (Options.validate_eq_ok_iff.mp hvalidate).1
  · intro violations hvalidate
    obtain ⟨rfl, hsome⟩ := Options.validate_eq_error_iff.mp hvalidate
    have horder := options.pairwise_violations
    refine ⟨hsome, horder.imp ?_, horder, fun violation => Options.mem_violations_iff⟩
    rintro earlier later hless rfl
    exact lt_irrefl _ hless
  · intro label text
    exact ⟨Printer.exists_ofLabel_iff_mem, rfl, fun failure => Printer.message_of_ofLabel⟩

/-- What is missing is reported before what conflicts, and the format comes last. -/
theorem conflict_reported_after_missing :
    let options : Options :=
      { freightName := "a", freightAlias := "b", outputFormat := some "toml" }
    let violations : List Violation :=
      [.missingProject, .missingSelector, .conflictingFreight, .unsupportedFormat "toml"]
    options.validate = .error violations ∧
      ∀ violation, violation ∈ violations ↔ options.Breaks violation := by
  intro options violations
  have hvalidate : options.validate = .error violations := rfl
  obtain ⟨-, -, hreported, -⟩ := validation_reports_broken_rules options
  obtain ⟨-, -, -, hbroken⟩ := hreported violations hvalidate
  exact ⟨hvalidate, hbroken⟩

/-! ## The report -/

namespace Violation

theorem toList_message_unsupportedFormat (label : String) :
    (unsupportedFormat label).message.toList =
      "unsupported output format ".toList ++ ((Text.quote label).toList ++
        " (allowed: json, yaml, name)".toList) := by
  rw [message_unsupportedFormat, String.toList_append, String.toList_append, List.append_assoc]

theorem message_unsupportedFormat_ne {text : String} (htext : text.toList.head? ≠ some 'u')
    (label : String) : (unsupportedFormat label).message ≠ text := by
  rintro rfl
  apply htext
  rw [toList_message_unsupportedFormat, List.head?_append]
  rfl

theorem message_injective : Function.Injective message := by
  intro first second heq
  cases first with
  | unsupportedFormat label =>
      cases second with
      | unsupportedFormat other =>
          have hquotes := congrArg String.toList heq
          rw [toList_message_unsupportedFormat, toList_message_unsupportedFormat,
            List.append_cancel_left_eq] at hquotes
          rw [(Text.quote_append_inj hquotes).1]
      | _ => exact absurd heq (message_unsupportedFormat_ne (by decide) label)
  | _ =>
      cases second with
      | unsupportedFormat label =>
          exact absurd heq.symm (message_unsupportedFormat_ne (by decide) label)
      | _ =>
          revert heq
          decide

theorem lineFeed_notMem_message (violation : Violation) :
    '\n' ∉ violation.message.toList := by
  cases violation with
  | unsupportedFormat label =>
      rw [toList_message_unsupportedFormat, List.mem_append, List.mem_append]
      rintro (hbefore | hquoted | hafter)
      · exact absurd hbefore (by decide)
      · exact Text.lineFeed_notMem_quote label hquoted
      · exact absurd hafter (by decide)
  | _ => decide

theorem message_ne_empty (violation : Violation) : violation.message ≠ "" := by
  cases violation with
  | unsupportedFormat label => exact message_unsupportedFormat_ne (by decide) label
  | _ => decide

end Violation

/-- A report has a line for each violation, in their order, with the words for that violation
and nothing else, and no two lists of violations are reported alike. -/
theorem reports_tell_violations_apart :
    (∀ violations : List Violation, violations ≠ [] →
      Text.lines (Violation.report violations) = violations.map Violation.message) ∧
      ∀ first second : List Violation,
        Violation.report first = Violation.report second → first = second := by
  have hlines : ∀ violations : List Violation, violations ≠ [] →
      Text.lines (Violation.report violations) = violations.map Violation.message := by
    intro violations hsome
    have hunbroken : ∀ text ∈ violations.map Violation.message, '\n' ∉ text.toList := by
      rw [List.forall_mem_map]
      exact fun violation _ => violation.lineFeed_notMem_message
    rw [Violation.report, Text.lines_intercalate hunbroken (by simpa using hsome)]
  have hnone : ∀ violations : List Violation, violations ≠ [] →
      Violation.report violations ≠ Violation.report [] := by
    intro violations hsome hreport
    -- The empty report is an empty line, and no violation is reported by that.
    have hempty : violations.map Violation.message = [""] := by
      rw [← hlines violations hsome, hreport]
      rfl
    obtain ⟨violation, hmem, hmessage⟩ :=
      List.mem_map.mp (hempty ▸ List.mem_singleton_self "")
    exact violation.message_ne_empty hmessage
  refine ⟨hlines, fun first second hreport => ?_⟩
  rcases eq_or_ne first [] with rfl | hfirst
  · by_contra hsecond
    exact hnone second (Ne.symm hsecond) hreport.symm
  · rcases eq_or_ne second [] with rfl | hsecond
    · exact absurd hreport (hnone first hfirst)
    · apply List.map_injective_iff.mpr Violation.message_injective
      rw [← hlines first hfirst, hreport, hlines second hsecond]

/-- A name with a line feed, quotes and the text of another message does not add a line. -/
theorem forged_format_stays_on_its_line :
    let violations : List Violation :=
      [.unsupportedFormat "x\"\nproject is required", .missingProject]
    violations ≠ [] ∧
      Text.lines (Violation.report violations) = violations.map Violation.message := by
  intro violations
  have hsome : violations ≠ [] := List.cons_ne_nil _ _
  exact ⟨hsome, reports_tell_violations_apart.1 violations hsome⟩

end FreightPromotion
