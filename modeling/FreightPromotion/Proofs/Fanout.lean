import FreightPromotion.Proofs.Classification
import FreightPromotion.Proofs.Submission

/-!
# What a refused fan-out shows

A server that refuses to promote to the subscribers of a stage may have created
promotions before, and lists them in the body of its refusal.  `promote_refused`
follows such a reply through the client, the submission and the output: what is
shown is the list that the client takes from the reply, and the failure is that of
the reply with the label of the operation.

The client takes the whole list except from replies that deny access, whose body it
does not read.  So the list is shown exactly when access is not denied, or when
there is nothing to show (`refused_fanout_output`); with a reply that denies access
and lists a promotion, the promotion stays unseen
(`denied_fanout_hides_promotion`).
-/

namespace FreightPromotion

open FreightPromotion.Text (Bytes)

variable {client : Client} {network : Http.Network} {deadline : Deadline} {options : Options}
  {request : Request} {connect : Traced (Result Service)} {reply : Http.Reply}

/-- A refused fan-out shows the promotions that the client takes from the reply,
and fails as the reply says. -/
theorem promote_refused (written : Bytes) (hvalidate : options.validate = .ok request)
    (hsubscribers : options.subscribersOfStage ≠ "") (hdeadline : deadline.isExpired = false)
    (hconnect : connect.value = .ok (client.service network))
    (hreceives : client.Receives network .promoteSubscribers reply)
    (hsuccess : ¬ reply.status.isSuccess = true) :
    (promote deadline options connect { written := written }).value =
      ({ written :=
          written ++ rendering options.requestedFormat? (reply.failure deadline).2 },
        .error ((reply.failure deadline).1.within "promote subscribers")) := by
  have hselector :=
    (Options.validate_eq_ok_iff.mp hvalidate).1.selector_eq_subscribersOf hsubscribers
  have hanswer :
      ((client.service network).promoteToSubscribers deadline request.project request.freight
          options.subscribersOfStage).value = reply.subscribersResult deadline :=
    Client.value_promoteToSubscribers hdeadline hreceives _ _ _
  -- A list that is left out for being empty shows as much as one that is there.
  have hcreated : (reply.subscribersResult deadline).value.getD [] = (reply.failure deadline).2 := by
    rw [Http.Reply.subscribersResult_of_refused hsuccess]
    split <;> simp_all
  rw [promote_unlimited deadline written hvalidate hconnect,
    Request.submit_subscribersOf deadline _ hselector, hanswer]
  simp only [Outcome.ofSubscribers, Outcome.result, hcreated]
  rw [Http.Reply.subscribersResult_of_refused hsuccess]
  rfl

/-- The output of a refused fan-out whose reply lists promotions.

Every promotion of the list is shown, in order, before the failure is returned —
unless the reply denies access, and then none is.  The list is therefore complete
exactly when access is not denied or the list is empty. -/
theorem refused_fanout_output (client : Client) (network : Http.Network) (deadline : Deadline)
    (options : Options) (request : Request) (connect : Traced (Result Service))
    (reply : Http.Reply) (body written : Bytes) (refusal : Refusal)
    (hvalidate : options.validate = .ok request)
    (hsubscribers : options.subscribersOfStage ≠ "")
    (hdeadline : deadline.isExpired = false)
    (hconnect : connect.value = .ok (client.service network))
    (hreceives : client.Receives network .promoteSubscribers reply)
    (hsuccess : ¬ (200 ≤ reply.status.code ∧ reply.status.code ≤ 299))
    (hcontent : reply.content deadline = .ok body)
    (hread : Json.read Refusal.read body = .ok refusal) :
    let run := promote deadline options connect { written := written }
    let shown := if reply.status.deniesAccess then [] else refusal.promotions
    run.value.1 = { written := written ++ rendering options.requestedFormat? shown } ∧
      (∃ failure : Failure, run.value.2 = .error (failure.within "promote subscribers") ∧
        failure.message = refusalWords reply.status body) ∧
      (run.value.1.written = written ++ rendering options.requestedFormat? refusal.promotions ↔
        ¬ reply.status.deniesAccess ∨ refusal.promotions = []) := by
  intro run shown
  rw [← Http.Status.isSuccess_iff] at hsuccess
  have hrun := promote_refused written hvalidate hsubscribers hdeadline hconnect hreceives hsuccess
  have hshown : (reply.failure deadline).2 = shown := by
    by_cases hdenied : reply.status.deniesAccess
    · simp only [shown, if_pos hdenied]
      exact Http.Reply.failure_of_deniesAccess hdenied
    · simp only [shown, if_neg hdenied, Http.Reply.failure_of_not_deniesAccess hdenied,
        Http.Reply.refusal_of_read hcontent hread]
  rw [hshown] at hrun
  have houtput : run.value.1 =
      { written := written ++ rendering options.requestedFormat? shown } :=
    congrArg Prod.fst hrun
  refine ⟨houtput, ⟨_, congrArg Prod.snd hrun, Http.Reply.message_failure hcontent⟩, ?_⟩
  rw [houtput, List.append_cancel_left_eq]
  by_cases hdenied : reply.status.deniesAccess
  · simp only [shown, if_pos hdenied, rendering_nil, hdenied, not_true_eq_false, false_or]
    rw [eq_comm, rendering_eq_nil_iff]
  · simp [shown, hdenied]

/-- The options of a fan-out to the subscribers of a stage. -/
def fanoutOptions : Options :=
  { project := "my-project", freightAlias := "wonky-wombat", subscribersOfStage := "qa" }

theorem validate_fanoutOptions :
    fanoutOptions.validate =
      .ok ⟨"my-project", .aliased "wonky-wombat", .subscribersOf "qa"⟩ := by
  rfl

/-- With status 500 the promotion is shown. -/
theorem failed_fanout_shows_promotion :
    let reply : Http.Reply := { status := ⟨500⟩, body := refusalBody }
    let connect : Traced (Result Service) := pure (.ok (Client.plain.service fun _ => .reply reply))
    reply.content .none = .ok refusalBody ∧
      (promote .none fanoutOptions connect { written := [] }).value.1.written =
        rendering none [.named "promo-2"] := by
  intro reply connect
  have hcontent : reply.content .none = .ok refusalBody := by rfl
  have houtput := refused_fanout_output Client.plain (fun _ => .reply reply) .none fanoutOptions _
    connect reply refusalBody [] _ validate_fanoutOptions (by decide) (by rfl) (by rfl)
    (Client.receives_plain _ reply) (by decide) hcontent read_refusalBody
  exact ⟨hcontent, houtput.2.2.mpr (.inl (by decide))⟩

/-- With status 403 the promotion stays unseen, although the body lists it. -/
theorem denied_fanout_hides_promotion :
    let reply : Http.Reply := { status := ⟨403⟩, body := refusalBody }
    let connect : Traced (Result Service) := pure (.ok (Client.plain.service fun _ => .reply reply))
    Json.read Refusal.read refusalBody =
        .ok { code := some "internal", promotions := [.named "promo-2"] } ∧
      reply.content .none = .ok refusalBody ∧
      (promote .none fanoutOptions connect { written := [] }).value.1.written = [] ∧
      rendering fanoutOptions.requestedFormat? [.named "promo-2"] ≠ [] := by
  intro reply connect
  have hrun : (promote .none fanoutOptions connect { written := [] }).value.1.written =
      [] ++ rendering fanoutOptions.requestedFormat? (reply.failure .none).2 :=
    congrArg (fun value => value.1.written) <|
      promote_refused [] validate_fanoutOptions (by decide) (by rfl) (by rfl)
        (Client.receives_plain _ reply) (by decide)
  refine ⟨read_refusalBody, by rfl, ?_, mt rendering_eq_nil_iff.mp (by simp)⟩
  rw [hrun, Http.Reply.failure_of_deniesAccess (by decide), rendering_nil]
  rfl

end FreightPromotion
