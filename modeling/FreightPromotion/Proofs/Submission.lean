import FreightPromotion.Proofs.Validation

/-!
# One call for each accepted request

`promote` checks the options, reaches the service, makes the call and shows the
outcome, in this order.  The lemmas below follow it through these stages for an
arbitrary service, whose own steps are part of the trace:

* options that break a rule leave no step and no output (`promote_of_violations`);
* a service that is not reached leaves the steps of reaching for it
  (`promote_of_unreachable`);
* otherwise the steps are those of reaching the service, then those of one
  submission, then those of showing its outcome (`promote_of_reached`).

Into a sink without a limit, showing the outcome takes no step and leaves the
rendering of what was created (`promote_unlimited`).
-/

namespace FreightPromotion

open FreightPromotion.Text (Bytes)

variable {request : Request} {stage : String}

/-! ## The submission -/

/-- The steps that precede the call of an operation. -/
def Request.opening (request : Request) : List Step :=
  [.event request.announcement, .call request]

/-- What the promotion into a stage has led to. -/
def Outcome.ofStage : Result Promotion → Outcome
  | .ok promotion => { promotions := [promotion] }
  | .error failure => { failure := some (failure.within "promote stage") }

/-- What the promotion to subscribers has led to. -/
def Outcome.ofSubscribers (answer : Partial (List Promotion)) : Outcome where
  promotions := answer.value.getD []
  failure := answer.failure.map (Failure.within "promote subscribers")

theorem Request.submit_stage (deadline : Deadline) (service : Service)
    (hselector : request.selector = .stage stage) :
    let call := service.promoteToStage deadline request.project request.freight stage
    request.submit deadline service =
      ⟨request.opening ++ call.steps, Outcome.ofStage call.value⟩ := by
  intro call
  cases hvalue : call.value <;>
    simp [Request.submit, hselector, Traced.log, Traced.step, bind, pure, call, hvalue,
      Request.opening, Outcome.ofStage]

theorem Request.submit_subscribersOf (deadline : Deadline) (service : Service)
    (hselector : request.selector = .subscribersOf stage) :
    let call := service.promoteToSubscribers deadline request.project request.freight stage
    let outcome := Outcome.ofSubscribers call.value
    request.submit deadline service =
      ⟨request.opening ++ call.steps ++ [.event outcome.conclusion], outcome⟩ := by
  intro call outcome
  simp [Request.submit, hselector, Traced.log, Traced.step, bind, pure, call, outcome,
    Request.opening, Outcome.ofSubscribers]

/-! ## Showing the outcome -/

/-- How a command ends that has shown all that was created. -/
def Outcome.result (outcome : Outcome) : Result Unit :=
  match outcome.failure with
  | none => .ok ()
  | some failure => .error failure

/-- What was created is shown whether or not the call failed, and then the failure
of the call is returned. -/
theorem Outcome.present_fresh (outcome : Outcome) (format : Option Format) (written : Bytes) :
    (outcome.present (.fresh format) { written := written }).steps = [] ∧
      (outcome.present (.fresh format) { written := written }).value.2 =
        ({ written := written ++ rendering format outcome.promotions }, outcome.result) := by
  have hshow := Presentation.show_fresh format outcome.promotions written
  -- The printer that is left does not matter, since it is not used again.
  obtain ⟨after, hafter⟩ : ∃ after,
      (Presentation.fresh format).show outcome.promotions { written := written } =
        (after, { written := written ++ rendering format outcome.promotions }, .ok ()) :=
    ⟨_, Prod.ext rfl hshow⟩
  cases hfailure : outcome.failure <;>
    simp [Outcome.present, hafter, hfailure, Outcome.result]

/-- The output in a sink that takes everything. -/
theorem Outcome.written_fresh (outcome : Outcome) (format : Option Format) :
    (outcome.present (.fresh format) .unlimited).value.2.1.written =
      rendering format outcome.promotions := by
  have hvalue := (outcome.present_fresh format []).2
  exact congrArg (fun shown : Sink × Result Unit => shown.1.written) hvalue

/-! ## The command -/

section Command

variable {options : Options} {connect : Traced (Result Service)}

theorem promote_of_violations (deadline : Deadline) (sink : Sink) {violations : List Violation}
    (hvalidate : options.validate = .error violations) :
    promote deadline options connect sink =
      ⟨[], sink, .error { cause := .invalidOptions violations }⟩ := by
  simp [promote, hvalidate, pure]

theorem promote_of_unreachable (deadline : Deadline) (sink : Sink) {failure : Failure}
    (hvalidate : options.validate = .ok request)
    (hconnect : connect.value = .error failure) :
    promote deadline options connect sink =
      ⟨.connect :: connect.steps, sink, .error failure⟩ := by
  have hformat := (Options.validate_eq_ok_iff.mp hvalidate).2
  simp [promote, hvalidate, Options.presentation_of_supported hformat, Traced.step, bind, pure,
    hconnect]

/-- The service is reached: one submission, and then its outcome is shown. -/
theorem promote_of_reached (deadline : Deadline) (sink : Sink) {service : Service}
    (hvalidate : options.validate = .ok request)
    (hconnect : connect.value = .ok service) :
    let submitted := request.submit deadline service
    let shown := submitted.value.present (.fresh options.requestedFormat?) sink
    promote deadline options connect sink =
      ⟨.connect :: connect.steps ++ (submitted.steps ++ shown.steps), shown.value.2⟩ := by
  intro submitted shown
  have hformat := (Options.validate_eq_ok_iff.mp hvalidate).2
  simp [promote, hvalidate, Options.presentation_of_supported hformat, Traced.step, bind, pure,
    hconnect, submitted, shown]

/-- Into a sink that takes everything, the outcome is shown without further steps. -/
theorem promote_unlimited (deadline : Deadline) (written : Bytes) {service : Service}
    (hvalidate : options.validate = .ok request)
    (hconnect : connect.value = .ok service) :
    let outcome := (request.submit deadline service).value
    promote deadline options connect { written := written } =
      ⟨.connect :: connect.steps ++ (request.submit deadline service).steps,
        { written := written ++ rendering options.requestedFormat? outcome.promotions },
        outcome.result⟩ := by
  intro outcome
  obtain ⟨hsteps, hvalue⟩ := outcome.present_fresh options.requestedFormat? written
  rw [promote_of_reached deadline _ hvalidate hconnect, hsteps, hvalue, List.append_nil]

end Command

/-- What a promotion does, whatever the options, the service and the way to it are.

* Options that break a rule are reported, and nothing else happens.
* For all others there is a presentation, and the service is asked for once.  If it
  cannot be had, that is the failure, and nothing else happens.
* Otherwise one operation is called, on the project, freight and stage of the
  options.  All that it returned is shown, also beside a failure, and its failure
  with the name of the operation is that of the promotion. -/
theorem promote_follows_options (deadline : Deadline) (options : Options)
    (connect : Traced (Result Service)) (written : Bytes) :
    let run := promote deadline options connect { written := written }
    (∀ violations, options.validate = .error violations →
      run = ⟨[], { written := written }, .error { cause := .invalidOptions violations }⟩) ∧
    (∀ request, options.validate = .ok request →
      options.Describe request ∧
      options.presentation = .ok (.fresh options.requestedFormat?) ∧
      (∀ failure, connect.value = .error failure →
        run = ⟨.connect :: connect.steps, { written := written }, .error failure⟩) ∧
      (∀ service, connect.value = .ok service →
        (options.targetStage ≠ "" →
          let call :=
            service.promoteToStage deadline options.project request.freight options.targetStage
          run.steps =
            .connect :: connect.steps ++
              ([.event request.announcement, .call request] ++ call.steps) ∧
          run.value =
            match call.value with
            | .ok promotion =>
              ({ written := written ++ rendering options.requestedFormat? [promotion] }, .ok ())
            | .error failure =>
              ({ written := written }, .error (failure.within "promote stage"))) ∧
        (options.subscribersOfStage ≠ "" →
          let call :=
            service.promoteToSubscribers deadline options.project request.freight
              options.subscribersOfStage
          let created := call.value.value.getD []
          let failure := call.value.failure.map (Failure.within "promote subscribers")
          run.steps =
            .connect :: connect.steps ++
              ([.event request.announcement, .call request] ++ call.steps ++
                [.event (Outcome.conclusion ⟨created, failure⟩)]) ∧
          run.value =
            ({ written := written ++ rendering options.requestedFormat? created },
              match failure with
              | none => .ok ()
              | some failure => .error failure)))) := by
  intro run
  refine ⟨fun violations hvalidate => promote_of_violations deadline _ hvalidate, ?_⟩
  intro request hvalidate
  obtain ⟨hdescribe, hformat⟩ := Options.validate_eq_ok_iff.mp hvalidate
  refine ⟨hdescribe, Options.presentation_of_supported hformat,
    fun failure hconnect => promote_of_unreachable deadline _ hvalidate hconnect, ?_⟩
  intro service hconnect
  have hrun := promote_unlimited deadline written hvalidate hconnect
  refine ⟨fun htarget => ?_, fun hsubscribers => ?_⟩
  · intro call
    have hsubmit := Request.submit_stage deadline service (hdescribe.selector_eq_stage htarget)
    rw [hdescribe.project.2] at hsubmit
    rw [hsubmit] at hrun
    refine ⟨congrArg Traced.steps hrun, (congrArg Traced.value hrun).trans ?_⟩
    cases hvalue : call.value with
    | ok promotion => rfl
    | error failure => simp [Outcome.ofStage, Outcome.result]
  · intro call created failure
    have hsubmit := Request.submit_subscribersOf deadline service
      (hdescribe.selector_eq_subscribersOf hsubscribers)
    rw [hdescribe.project.2] at hsubmit
    rw [hsubmit] at hrun
    exact ⟨congrArg Traced.steps hrun, congrArg Traced.value hrun⟩

/-- A service that creates two promotions for the subscribers and then fails: both
are shown, and the failure is returned with its label. -/
theorem promote_partial_fanout :
    let options : Options :=
      { project := "my-project", freightAlias := "wonky-wombat", subscribersOfStage := "qa",
        outputFormat := some "name" }
    let request : Request := ⟨"my-project", .aliased "wonky-wombat", .subscribersOf "qa"⟩
    let created := [Promotion.named "promo-2", Promotion.named "promo-3"]
    let service : Service :=
      { promoteToStage := fun _ _ _ _ => pure (.error (.ofMessage "no such stage"))
        promoteToSubscribers := fun _ _ _ _ => pure ⟨some created, some (.ofMessage "E")⟩ }
    options.validate = .ok request ∧
      (promote .none options (pure (.ok service)) { written := [] }).value =
        ({ written := rendering (some .name) created },
          .error ((Failure.ofMessage "E").within "promote subscribers")) := by
  intro options request created service
  have hvalidate : options.validate = .ok request := by rfl
  have hcontract := promote_follows_options .none options (pure (.ok service)) []
  exact ⟨hvalidate, (((hcontract.2 request hvalidate).2.2.2 service rfl).2 (by decide)).2⟩

end FreightPromotion
