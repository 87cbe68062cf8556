import FreightPromotion.Format
import FreightPromotion.Request
import FreightPromotion.Text.Quoted

/-!
# Options

The options of a promotion arrive as texts, and an empty text means that the
option was not given.  Validation checks every rule, so that all violations are
reported at once, and turns options that break none into a request.
-/

namespace FreightPromotion

/-- What the user asked for, not yet checked. -/
structure Options where
  project : String := ""
  freightName : String := ""
  freightAlias : String := ""
  targetStage : String := ""
  subscribersOfStage : String := ""
  outputFormat : Option String := none
deriving DecidableEq, Repr

/-- The text of an option that was given. -/
def given? (text : String) : Option String :=
  if text.isEmpty then none else some text

/-- The format that was asked for. -/
def Options.format? (options : Options) : Option String :=
  options.outputFormat.bind given?

/-- A rule that options break. -/
inductive Violation where
  | missingProject
  | missingFreight
  | missingSelector
  | conflictingFreight
  | conflictingSelector
  | unsupportedFormat (label : String)
deriving DecidableEq, Repr

/-- The wording of a violation. -/
def Violation.message : Violation → String
  | .missingProject => "project is required"
  | .missingFreight => "either freight name or freight alias is required"
  | .missingSelector => "either target stage or subscribers-of stage is required"
  | .conflictingFreight => "only one of freight name or freight alias may be set"
  | .conflictingSelector => "only one of target stage or subscribers-of stage may be set"
  | .unsupportedFormat label =>
    "unsupported output format " ++ Text.quote label ++ " (allowed: json, yaml, name)"

/-- Violations are reported a line each. -/
def Violation.report (violations : List Violation) : String :=
  "\n".intercalate (violations.map Violation.message)

/-- How many of two exclusive options were given. -/
inductive Choice (α : Type) where
  | neither
  | one (value : α)
  | both
deriving DecidableEq

/-- The choice between two options, each with the meaning of its text. -/
def Choice.of {α : Type} (first second : String) (left right : String → α) : Choice α :=
  match given? first, given? second with
  | some text, none => .one (left text)
  | none, some text => .one (right text)
  | none, none => .neither
  | some _, some _ => .both

/-- The value of a choice that was made. -/
def Choice.value? {α : Type} : Choice α → Option α
  | .one value => some value
  | _ => none

/-- How the options identify the freight. -/
def Options.freight (options : Options) : Choice Freight :=
  .of options.freightName options.freightAlias .named .aliased

/-- Where the options send the freight. -/
def Options.selector (options : Options) : Choice Selector :=
  .of options.targetStage options.subscribersOfStage .stage .subscribersOf

/-- The violation of a rule that does not hold. -/
def violationUnless (holds : Bool) (violation : Violation) : List Violation :=
  if holds then [] else [violation]

/-- The format that was asked for, if it does not exist. -/
def Options.unsupportedFormat? (options : Options) : Option String :=
  options.format?.filter fun label => !isSupportedFormat label

/-- The rules that the options break.  What is missing comes first, then what
conflicts, then the format. -/
def Options.violations (options : Options) : List Violation :=
  violationUnless (!options.project.isEmpty) .missingProject ++
    violationUnless (options.freight ≠ .neither) .missingFreight ++
    violationUnless (options.selector ≠ .neither) .missingSelector ++
    violationUnless (options.freight ≠ .both) .conflictingFreight ++
    violationUnless (options.selector ≠ .both) .conflictingSelector ++
    (options.unsupportedFormat?.map Violation.unsupportedFormat).toList

/-- The request that the options describe, or the rules that they break. -/
def Options.validate (options : Options) : Except (List Violation) Request :=
  match options.violations, options.freight, options.selector with
  | [], .one freight, .one selector => .ok ⟨options.project, freight, selector⟩
  | violations, _, _ => .error violations

end FreightPromotion
