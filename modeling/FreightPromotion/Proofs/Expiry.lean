import FreightPromotion.Proofs.Classification

/-!
# Deadlines that pass during a call

A client can wait in vain at three places: for the head of a reply, for the body of a
reply of success, and for the body of a refusal.  At the first two it says that the
deadline has passed.  At the third it takes the body that did not arrive for a
refusal that says nothing, and then the status stands in for its words
(`failure_of_stopped`).  So the deadline is reported exactly when the answer is not a
refusal (`expiry_reported_unless_refused`).

Whatever has arrived of a body that stops, neither operation returns a promotion.
-/

namespace FreightPromotion

/-- How a deadline is reported that passes during a call. -/
def expiryText : String := "context deadline exceeded"

/-- The words for a refusal that says nothing. -/
def Http.Status.refusedText (status : Http.Status) : String :=
  "request failed with status " ++ status.text

/-- The deadline has not passed yet, but it will. -/
structure Deadline.IsAhead (deadline : Deadline) : Prop where
  limited : deadline.remaining.isSome = true
  unexpired : deadline.isExpired = false

theorem Deadline.IsAhead.waiting {deadline : Deadline} (hahead : deadline.IsAhead) :
    deadline.waiting = .timedOut :=
  if_pos hahead.limited

namespace Http

/-! ## Answers that stop -/

/-- The answer stops before it is complete, and the connection stays open: nothing
has come, or the head of a reply and some of its body.  A reply without a body is
complete, and of one that denies access nothing more is awaited. -/
inductive Answer.Stops : Answer → Prop
  | silent : Answer.silent.Stops
  | body {reply : Reply} (hending : reply.ending = .stalled)
      (hbody : reply.status.isBodiless = false) (hdenied : ¬ reply.status.deniesAccess) :
      (Answer.reply reply).Stops

/-- The answer is a reply whose status is not one of success. -/
def Answer.Refuses (answer : Answer) : Prop :=
  ∃ reply, answer = .reply reply ∧ ¬ (200 ≤ reply.status.code ∧ reply.status.code ≤ 299)

/-- The words in which an answer that stops is reported. -/
def Answer.stopText : Answer → String
  | .reply found => if found.status.isSuccess then expiryText else found.status.refusedText
  | _ => expiryText

/-- The failure in which an answer that stops ends. -/
def Answer.stopFailure : Answer → Failure
  | .reply found =>
    if found.status.isSuccess then { labels := [expiryText], cause := .transport }
    else .ofMessage found.status.refusedText
  | _ => { labels := [expiryText], cause := .transport }

theorem Answer.chain_stopFailure (answer : Answer) :
    answer.stopFailure.chain = [answer.stopText] := by
  cases answer with
  | reply reply =>
      simp only [Answer.stopFailure, Answer.stopText]
      split <;> rfl
  | refused | closed | silent => rfl

theorem Status.refusedText_ne (status : Status) : status.refusedText ≠ expiryText := by
  intro hsame
  have hletters : ("request failed with status ".toList ++ status.text.toList).head? = some 'c' := by
    rw [← String.toList_append]
    exact congrArg (fun text => text.toList.head?) hsame
  exact absurd (Option.some.inj hletters) (by decide)

/-- The deadline is reported unless the answer is a refusal. -/
theorem Answer.stopText_eq_iff {answer : Answer} :
    answer.stopText = expiryText ↔ ¬ answer.Refuses := by
  cases answer with
  | reply reply =>
      simp only [Answer.Refuses, Answer.reply.injEq, ← Status.isSuccess_iff, exists_eq_left',
        not_not]
      cases hsuccess : reply.status.isSuccess <;>
        simp [Answer.stopText, hsuccess, Status.refusedText_ne]
  | refused | closed | silent => simp [Answer.stopText, Answer.Refuses]

/-! ## Bodies that stop -/

namespace Reply

variable {deadline : Deadline} {reply : Reply}

/-- A body that stops ends with the deadline. -/
theorem content_of_stopped (hahead : deadline.IsAhead) (hending : reply.ending = .stalled)
    (hbody : reply.status.isBodiless = false) : reply.content deadline = .error .timedOut := by
  simp [Reply.content, hbody, hending, hahead.waiting]

/-- A refusal whose body stops says nothing and lists nothing. -/
theorem failure_of_stopped (hcontent : reply.content deadline = .error .timedOut)
    (hdenied : ¬ reply.status.deniesAccess) :
    reply.failure deadline = (.ofMessage reply.status.refusedText, []) := by
  have hrefusal : reply.refusal deadline = {} := by
    simp [Reply.refusal, hcontent]
  rw [failure_of_not_deniesAccess hdenied, hrefusal, Refusal.description_eq_words]
  rfl

theorem stageResult_of_stopped (hcontent : reply.content deadline = .error .timedOut)
    (hdenied : ¬ reply.status.deniesAccess) :
    reply.stageResult deadline = .error (Answer.reply reply).stopFailure := by
  by_cases hsuccess : reply.status.isSuccess = true
  · simp only [Reply.stageResult, Answer.stopFailure, hsuccess, if_true, Reply.decode, hcontent]
    rfl
  · simp only [stageResult_of_refused hsuccess, failure_of_stopped hcontent hdenied,
      Answer.stopFailure, hsuccess, Bool.false_eq_true, if_false]

theorem subscribersResult_of_stopped (hcontent : reply.content deadline = .error .timedOut)
    (hdenied : ¬ reply.status.deniesAccess) :
    reply.subscribersResult deadline = { failure := some (Answer.reply reply).stopFailure } := by
  by_cases hsuccess : reply.status.isSuccess = true
  · simp only [Reply.subscribersResult, Answer.stopFailure, hsuccess, if_true, Reply.decode,
      hcontent]
    rfl
  · simp only [subscribersResult_of_refused hsuccess, failure_of_stopped hcontent hdenied,
      Answer.stopFailure, hsuccess, Bool.false_eq_true, if_false, if_true]

end Reply

end Http

/-! ## Calls that stop -/

namespace Client

variable {client : Client} {network : Http.Network} {deadline : Deadline}
  {operation : Operation} {body : String} {answer : Http.Answer}

/-- The message of an operation can be sent, and this is the answer to it. -/
def IsAnswered (client : Client) (network : Http.Network) (operation : Operation)
    (answer : Http.Answer) : Prop :=
  ∃ url, Http.Url.read (client.address operation) = .ok url ∧
    client.authorization.all isHeaderText = true ∧ network (client.route url) = answer

theorem isAnswered_plain (operation : Operation) (answer : Http.Answer) :
    plain.IsAnswered (fun _ => answer) operation answer :=
  ⟨_, read_address_plain operation, rfl, rfl⟩

/-- Before a reply has begun, the deadline ends the exchange. -/
theorem value_post_of_silent (hahead : deadline.IsAhead)
    (hanswered : client.IsAnswered network operation .silent) :
    (client.post network deadline operation body).value =
      .error Http.Answer.silent.stopFailure := by
  obtain ⟨url, hread, hheader, hanswer⟩ := hanswered
  have hmessage : client.message operation body =
      .ok (url, client.messageTo operation body url) :=
    message_eq_ok_iff.mpr ⟨hread, hheader, rfl⟩
  simp [Client.post, hahead.unexpired, hmessage, hanswer, hahead.waiting, Interruption.failure,
    Http.Answer.stopFailure, expiryText]

theorem value_promoteToStage_of_stopped (hahead : deadline.IsAhead) (hstops : answer.Stops)
    (hanswered : client.IsAnswered network .promoteStage answer)
    (project : String) (freight : Freight) (stage : String) :
    ((client.service network).promoteToStage deadline project freight stage).value =
      .error answer.stopFailure := by
  cases hstops with
  | silent =>
      simp only [Client.service, Traced.value_bind, value_post_of_silent hahead hanswered,
        Traced.value_pure]
  | body hending hbody hdenied =>
      rw [value_promoteToStage hahead.unexpired hanswered project freight stage]
      exact Http.Reply.stageResult_of_stopped
        (Http.Reply.content_of_stopped hahead hending hbody) hdenied

theorem value_promoteToSubscribers_of_stopped (hahead : deadline.IsAhead) (hstops : answer.Stops)
    (hanswered : client.IsAnswered network .promoteSubscribers answer)
    (project : String) (freight : Freight) (stage : String) :
    ((client.service network).promoteToSubscribers deadline project freight stage).value =
      { failure := some answer.stopFailure } := by
  cases hstops with
  | silent =>
      simp only [Client.service, Traced.value_bind, value_post_of_silent hahead hanswered,
        Traced.value_pure]
  | body hending hbody hdenied =>
      rw [value_promoteToSubscribers hahead.unexpired hanswered project freight stage]
      exact Http.Reply.subscribersResult_of_stopped
        (Http.Reply.content_of_stopped hahead hending hbody) hdenied

end Client

/-- What the two operations return when the deadline passes during the call, whatever
has arrived of the answer by then: no promotion, and a failure.  Its outermost text is
that the deadline has passed if no reply has begun, or one of success.  For a refusal
it is the status instead. -/
theorem expiry_reported_unless_refused (client : Client) (network : Http.Network)
    (deadline : Deadline) (answer : Http.Answer) (project : String) (freight : Freight)
    (stage : String) (hahead : deadline.IsAhead) (hstops : answer.Stops)
    (hstage : client.IsAnswered network .promoteStage answer)
    (hsubscribers : client.IsAnswered network .promoteSubscribers answer) :
    let service := client.service network
    ∃ failure : Failure,
      (service.promoteToStage deadline project freight stage).value = .error failure ∧
      (service.promoteToSubscribers deadline project freight stage).value =
        { value := none, failure := some failure } ∧
      failure.chain.head? = some answer.stopText ∧
      (failure.chain.head? = some expiryText ↔ ¬ answer.Refuses) := by
  intro service
  have hstageValue :=
    Client.value_promoteToStage_of_stopped hahead hstops hstage project freight stage
  have hsubscribersValue :=
    Client.value_promoteToSubscribers_of_stopped hahead hstops hsubscribers project freight stage
  refine ⟨answer.stopFailure, hstageValue, hsubscribersValue, ?_, ?_⟩
  · rw [Http.Answer.chain_stopFailure, List.head?_singleton]
  · rw [Http.Answer.chain_stopFailure, List.head?_singleton, Option.some.injEq]
    exact Http.Answer.stopText_eq_iff

/-- A reply of success that stops after its first byte is reported as the deadline. -/
theorem stopped_success_reports_expiry :
    let reply : Http.Reply :=
      { status := ⟨200⟩, body := Text.encode "\x7b", ending := .stalled }
    let service := Client.plain.service fun _ => .reply reply
    ∃ failure : Failure,
      (service.promoteToStage ⟨some 250⟩ "my-project" (.named "abc123") "qa").value =
        .error failure ∧
      (service.promoteToSubscribers ⟨some 250⟩ "my-project" (.named "abc123") "qa").value =
        { value := none, failure := some failure } ∧
      failure.chain.head? = some "context deadline exceeded" := by
  intro reply service
  obtain ⟨failure, hstage, hsubscribers, htext, -⟩ :=
    expiry_reported_unless_refused Client.plain (fun _ => .reply reply) ⟨some 250⟩
      (.reply reply) "my-project" (.named "abc123") "qa" ⟨by decide, by decide⟩
      (.body (by decide) (by decide) (by decide))
      (Client.isAnswered_plain _ _) (Client.isAnswered_plain _ _)
  exact ⟨failure, hstage, hsubscribers, htext⟩

/-- A refusal that stops is reported by its status, although it is the deadline that
ended the call. -/
theorem stopped_refusal_hides_expiry :
    let reply : Http.Reply :=
      { status := ⟨500⟩, body := Text.encode "\x7b\"code\":\"c\"", ending := .stalled }
    let service := Client.plain.service fun _ => .reply reply
    (Http.Answer.reply reply).Stops ∧
      ∃ failure : Failure,
        (service.promoteToStage ⟨some 250⟩ "my-project" (.named "abc123") "qa").value =
          .error failure ∧
        (service.promoteToSubscribers ⟨some 250⟩ "my-project" (.named "abc123") "qa").value =
          { value := none, failure := some failure } ∧
        failure.chain.head? ≠ some "context deadline exceeded" := by
  intro reply service
  have hahead : Deadline.IsAhead ⟨some 250⟩ := ⟨by decide, by decide⟩
  have hstops : (Http.Answer.reply reply).Stops := .body (by decide) (by decide) (by decide)
  have hrefuses : (Http.Answer.reply reply).Refuses := ⟨reply, rfl, by decide⟩
  refine ⟨hstops, (Http.Answer.reply reply).stopFailure, ?_, ?_, ?_⟩
  · exact Client.value_promoteToStage_of_stopped hahead hstops (Client.isAnswered_plain _ _) _ _ _
  · exact Client.value_promoteToSubscribers_of_stopped hahead hstops (Client.isAnswered_plain _ _)
      _ _ _
  · rw [Http.Answer.chain_stopFailure, List.head?_singleton, ne_eq, Option.some.injEq]
    exact fun htext => Http.Answer.stopText_eq_iff.mp htext hrefuses

end FreightPromotion
