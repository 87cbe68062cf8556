import FreightPromotion.Outcome
import FreightPromotion.Proofs.Rendering
import Mathlib

/-!
# Options that make a request

`validate_eq_ok_iff` says which options are accepted and what request they make:
the project is given, exactly one option of each exclusive pair is given, and the
format, if one is asked for, exists.  The request then holds the texts of the
options and nothing else, which is what `Options.Describe` says.

A format that validation accepts is one for which there is a printer, so the
presentation of accepted options is never refused (`Options.presentation_of_supported`).
-/

namespace FreightPromotion

/-! ## Texts that were given -/

theorem given?_eq_none_iff {text : String} : given? text = none ↔ text = "" := by
  unfold given?
  split <;> simp_all

theorem given?_eq_some_iff {text value : String} :
    given? text = some value ↔ text ≠ "" ∧ value = text := by
  unfold given?
  by_cases h : text = ""
  · simp [h]
  · simp only [String.isEmpty_iff, h, if_false, Option.some.injEq, ne_eq, not_false_eq_true,
      true_and]
    exact eq_comm

/-! ## Choices -/

section Choice

variable {α : Type} {first second : String} {left right : String → α} {value : α}

/-- One of two exclusive options is given when its text is not empty and the
other one is. -/
theorem Choice.of_eq_one_iff :
    Choice.of first second left right = .one value ↔
      (first ≠ "" ∧ second = "" ∧ value = left first) ∨
        (first = "" ∧ second ≠ "" ∧ value = right second) := by
  unfold Choice.of
  cases hfirst : given? first with
  | none =>
      rw [given?_eq_none_iff] at hfirst
      cases hsecond : given? second with
      | none =>
          rw [given?_eq_none_iff] at hsecond
          simp [hfirst, hsecond]
      | some text =>
          rw [given?_eq_some_iff] at hsecond
          simp [hfirst, hsecond, eq_comm]
  | some text =>
      rw [given?_eq_some_iff] at hfirst
      cases hsecond : given? second with
      | none =>
          rw [given?_eq_none_iff] at hsecond
          simp [hfirst, hsecond, eq_comm]
      | some other =>
          rw [given?_eq_some_iff] at hsecond
          simp [hfirst, hsecond]

theorem Choice.exists_eq_one {choice : Choice α} (hneither : choice ≠ .neither)
    (hboth : choice ≠ .both) : ∃ value, choice = .one value := by
  cases choice with
  | neither => exact absurd rfl hneither
  | one value => exact ⟨value, rfl⟩
  | both => exact absurd rfl hboth

end Choice

/-! ## Accepted options -/

/-- The request says what the options say: each of its parts is the text of an
option that was given, and the option that would exclude it was not given. -/
structure Options.Describe (options : Options) (request : Request) : Prop where
  project : options.project ≠ "" ∧ request.project = options.project
  freight :
    (options.freightName ≠ "" ∧ options.freightAlias = "" ∧
        request.freight = .named options.freightName) ∨
      (options.freightName = "" ∧ options.freightAlias ≠ "" ∧
        request.freight = .aliased options.freightAlias)
  selector :
    (options.targetStage ≠ "" ∧ options.subscribersOfStage = "" ∧
        request.selector = .stage options.targetStage) ∨
      (options.targetStage = "" ∧ options.subscribersOfStage ≠ "" ∧
        request.selector = .subscribersOf options.subscribersOfStage)

section Describe

variable {options : Options} {request : Request}

theorem Options.Describe.selector_eq_stage (hdescribe : options.Describe request)
    (htarget : options.targetStage ≠ "") : request.selector = .stage options.targetStage := by
  rcases hdescribe.selector with ⟨-, -, hselector⟩ | ⟨hempty, -, -⟩
  · exact hselector
  · exact absurd hempty htarget

theorem Options.Describe.selector_eq_subscribersOf (hdescribe : options.Describe request)
    (hsubscribers : options.subscribersOfStage ≠ "") :
    request.selector = .subscribersOf options.subscribersOfStage := by
  rcases hdescribe.selector with ⟨-, hempty, -⟩ | ⟨-, -, hselector⟩
  · exact absurd hempty hsubscribers
  · exact hselector

end Describe

theorem violationUnless_eq_nil_iff {holds : Bool} {violation : Violation} :
    violationUnless holds violation = [] ↔ holds = true := by
  cases holds <;> simp [violationUnless]

/-- Options break no rule when a project is given, one of each pair, and a format
that exists. -/
theorem Options.violations_eq_nil_iff {options : Options} :
    options.violations = [] ↔
      options.project ≠ "" ∧ (∃ freight, options.freight = .one freight) ∧
        (∃ selector, options.selector = .one selector) ∧ options.unsupportedFormat? = none := by
  simp only [Options.violations, List.append_eq_nil_iff, violationUnless_eq_nil_iff]
  constructor
  · rintro ⟨⟨⟨⟨⟨hproject, hfreight⟩, hselector⟩, hfreights⟩, hselectors⟩, hformat⟩
    refine ⟨by simpa using hproject, Choice.exists_eq_one ?_ ?_, Choice.exists_eq_one ?_ ?_, ?_⟩
    · simpa using hfreight
    · simpa using hfreights
    · simpa using hselector
    · simpa using hselectors
    · simpa using hformat
  · rintro ⟨hproject, ⟨freight, hfreight⟩, ⟨selector, hselector⟩, hformat⟩
    simp [hproject, hfreight, hselector, hformat]

/-- Validation accepts options exactly when they describe a request and ask for
no format that does not exist. -/
theorem Options.validate_eq_ok_iff {options : Options} {request : Request} :
    options.validate = .ok request ↔
      options.Describe request ∧ options.unsupportedFormat? = none := by
  have hrules := options.violations_eq_nil_iff
  constructor
  · intro h
    unfold Options.validate at h
    split at h
    case h_2 => simp at h
    -- Without violations both choices are made, and the last case does not occur.
    case h_1 freight selector hviolations hfreight hselector =>
      obtain ⟨hproject, -, -, hformat⟩ := hrules.mp hviolations
      obtain rfl : (⟨options.project, freight, selector⟩ : Request) = request := by simpa using h
      exact ⟨⟨⟨hproject, rfl⟩, Choice.of_eq_one_iff.mp hfreight,
        Choice.of_eq_one_iff.mp hselector⟩, hformat⟩
  · rintro ⟨hdescribe, hformat⟩
    have hfreight : options.freight = .one request.freight :=
      Choice.of_eq_one_iff.mpr hdescribe.freight
    have hselector : options.selector = .one request.selector :=
      Choice.of_eq_one_iff.mpr hdescribe.selector
    have hviolations : options.violations = [] :=
      hrules.mpr ⟨hdescribe.project.1, ⟨_, hfreight⟩, ⟨_, hselector⟩, hformat⟩
    simp only [Options.validate, hviolations, hfreight, hselector, ← hdescribe.project.2]

/-! ## Formats -/

/-- The format that options ask for. -/
def Options.requestedFormat? (options : Options) : Option Format :=
  options.format?.bind Format.ofLabel?

/-- Validation and the printers agree on the formats: a presentation is there for
all options that validation accepts. -/
theorem Options.presentation_of_supported {options : Options}
    (hformat : options.unsupportedFormat? = none) :
    options.presentation = .ok (.fresh options.requestedFormat?) := by
  unfold Options.presentation Options.requestedFormat?
  cases hlabel : options.format? with
  | none => rfl
  | some label =>
      have hsupported : isSupportedFormat label = true := by
        simpa [Options.unsupportedFormat?, hlabel] using hformat
      obtain ⟨format, rfl⟩ := isSupportedFormat_iff.mp hsupported
      have hprinter : Printer.ofLabel format.label = .ok (.ofFormat format) :=
        Printer.ofLabel_eq_ok_iff.mpr ⟨format, rfl, rfl⟩
      simp [hprinter, Format.ofLabel?_label, Result.within, Except.mapError, Except.map,
        Presentation.fresh]

end FreightPromotion
