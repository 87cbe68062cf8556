import FreightPromotion.Deadline
import FreightPromotion.Output
import FreightPromotion.Trace

/-!
# Outcomes

A request is passed to the service in one call, which is never repeated.  The
outcome holds the promotions that the call has created and its failure, if any:
promoting to the subscribers of a stage may create some promotions before it
fails.  What has been created is shown before the failure is returned.
-/

namespace FreightPromotion

/-! ## The service -/

/-- A value and a failure, either of which may be missing. -/
structure Partial (α : Type) where
  value : Option α := none
  failure : Option Failure := none

/-- The two operations that create promotions. -/
structure Service where
  promoteToStage : Deadline → String → Freight → String → Traced (Result Promotion)
  promoteToSubscribers :
    Deadline → String → Freight → String → Traced (Partial (List Promotion))

/-! ## The call -/

/-- What one call has led to. -/
structure Outcome where
  promotions : List Promotion := []
  failure : Option Failure := none

/-- The names of the promotions that were created. -/
def Outcome.createdNames (outcome : Outcome) : List String :=
  outcome.promotions.map Promotion.name

/-- Promotions were created before the call failed. -/
def Outcome.isPartial (outcome : Outcome) : Bool :=
  outcome.failure.isSome && !outcome.promotions.isEmpty

/-- The source of the events of a call. -/
def submissionSource : String := "kargo::promote::dispatch"

/-- The event that precedes a call. -/
def Request.announcement (request : Request) : Event where
  level := .debug
  source := submissionSource
  message :=
    match request.selector with
    | .stage _ => "promoting to stage"
    | .subscribersOf _ => "promoting to subscribers"
  fields :=
    [("project", .plain request.project), ("freight", .plain request.freight.description),
      ("stage", .plain request.selector.stageName)]

/-- The event that follows a promotion to subscribers. -/
def Outcome.conclusion (outcome : Outcome) : Event where
  level := if outcome.isPartial then .warn else .debug
  source := submissionSource
  message :=
    if outcome.isPartial then "promotion to subscribers failed after creating some promotions"
    else "promotion to subscribers finished"
  fields := [("created", .count outcome.promotions.length)]

/-- Makes the one call that a request asks for. -/
def Request.submit (request : Request) (deadline : Deadline) (service : Service) :
    Traced Outcome := do
  Traced.log request.announcement
  Traced.step (.call request)
  match request.selector with
  | .stage stage =>
    match ← service.promoteToStage deadline request.project request.freight stage with
    | .ok promotion => return { promotions := [promotion] }
    | .error failure => return { failure := some (failure.within "promote stage") }
  | .subscribersOf stage =>
    let answer ← service.promoteToSubscribers deadline request.project request.freight stage
    let outcome : Outcome :=
      { promotions := answer.value.getD []
        failure := answer.failure.map (Failure.within "promote subscribers") }
    Traced.log outcome.conclusion
    return outcome

/-! ## Showing the outcome -/

/-- The event for a failure to show promotions that the failure of the call
takes precedence over. -/
def showFailureEvent (failure : Failure) : Event where
  level := .warn
  source := "kargo::promote::render"
  message := "failed to print promotions"
  fields := [("error", .plain failure.message)]

/-- Shows what was created, and then returns the failure of the call, or else
that of the showing. -/
def Outcome.present (outcome : Outcome) (presentation : Presentation) (sink : Sink) :
    Traced (Presentation × Sink × Result Unit) := do
  let (presentation, sink, shown) := presentation.show outcome.promotions sink
  match outcome.failure, shown with
  | some failure, .error showFailure =>
    Traced.log (showFailureEvent showFailure)
    return (presentation, sink, .error failure)
  | some failure, .ok () => return (presentation, sink, .error failure)
  | none, shown => return (presentation, sink, shown)

/-! ## The command -/

/-- The presentation that options ask for. -/
def Options.presentation (options : Options) : Result Presentation :=
  match options.format? with
  | none => .ok .summary
  | some label => Result.within "new printer" ((Printer.ofLabel label).map Presentation.printed)

/-- Checks the options, reaches the service, makes the call and shows the
outcome.  Options that break a rule never reach the service. -/
def promote (deadline : Deadline) (options : Options) (connect : Traced (Result Service))
    (sink : Sink) : Traced (Sink × Result Unit) := do
  match options.validate with
  | .error violations => return (sink, .error { cause := .invalidOptions violations })
  | .ok request =>
    match options.presentation with
    | .error failure => return (sink, .error failure)
    | .ok presentation =>
      Traced.step .connect
      match ← connect with
      | .error failure => return (sink, .error failure)
      | .ok service =>
        let outcome ← request.submit deadline service
        let (_, sink, result) ← outcome.present presentation sink
        return (sink, result)

end FreightPromotion
