import FreightPromotion.Proofs.Exchange
import FreightPromotion.Proofs.Replies
import FreightPromotion.Proofs.Validation

/-!
# What the client makes of a reply

A reply that arrives completely is classified by its status and by what its body
says.  `stageResult_eq_ok_iff` and the three lemmas on `subscribersResult` say when
an operation returns a value, when it returns a value beside a failure, and that
in all other cases it returns a failure alone.

Both operations read the refusal of the server with one reader and put it into
words with one function, so that they fail in the same words.  These words are
given by `refusalWords`, without reference to the order in which the client looks
at the parts of a refusal.
-/

namespace FreightPromotion

open FreightPromotion.Text (Bytes)

namespace Http.Status

/-- The server does not let the user do this.  Such a reply has words of its own. -/
def deniesAccess (status : Status) : Prop :=
  status.code = 401 ∨ status.code = 403

instance (status : Status) : Decidable status.deniesAccess :=
  inferInstanceAs (Decidable (_ ∨ _))

theorem isSuccess_iff {status : Status} :
    status.isSuccess = true ↔ 200 ≤ status.code ∧ status.code ≤ 299 := by
  simp [isSuccess]

theorem eq_unauthorized_iff {status : Status} : status = .unauthorized ↔ status.code = 401 := by
  cases status
  simp [unauthorized]

theorem eq_forbidden_iff {status : Status} : status = .forbidden ↔ status.code = 403 := by
  cases status
  simp [forbidden]

/-- The words for a refusal with a code and a message, either of which is missing
when it is empty. -/
def words (status : Status) (code message : String) : String :=
  if message = "" then
    if code = "" then "request failed with status " ++ status.text
    else code ++ " (status " ++ status.text ++ ")"
  else if code = "" then message
  else code ++ ": " ++ message

end Http.Status

/-- The words for a refusal with this status and body. -/
def refusalWords (status : Http.Status) (body : Bytes) : String :=
  if status.code = 401 then "unauthorized (bearer token missing, invalid or expired)"
  else if status.code = 403 then "forbidden (insufficient permissions in this project)"
  else
    match Json.read Refusal.read body with
    | .ok refusal => status.words (refusal.code.getD "") (refusal.message.getD "")
    | .error _ => "request failed with status " ++ status.text

/-! ## Words -/

theorem bind_given? (text? : Option String) :
    text?.bind given? = if text?.getD "" = "" then none else some (text?.getD "") := by
  cases text? with
  | none => rfl
  | some text => simp [given?]

/-- A refusal is described by its parts that are not empty. -/
theorem Refusal.description_eq_words (refusal : Refusal) (status : Http.Status) :
    refusal.description status =
      status.words (refusal.code.getD "") (refusal.message.getD "") := by
  unfold Refusal.description Http.Status.words
  rw [bind_given?, bind_given?]
  by_cases hcode : refusal.code.getD "" = "" <;>
    by_cases hmessage : refusal.message.getD "" = "" <;>
      simp only [hcode, hmessage, if_true, if_false]

namespace Http.Reply

variable {reply : Http.Reply} {deadline : Deadline} {body : Bytes}

/-! ## Bodies that arrived -/

theorem decode_eq_ok_iff {α : Type} {label : String} {reader : Json.Reader α} {value : α}
    (hcontent : reply.content deadline = .ok body) :
    reply.decode deadline label reader = .ok value ↔ Json.read reader body = .ok value := by
  unfold Http.Reply.decode
  rw [hcontent]
  cases hread : Json.read reader body with
  | error fault => simp [hread]
  | ok found => simp [hread]

theorem refusal_of_read {refusal : Refusal} (hcontent : reply.content deadline = .ok body)
    (hread : Json.read Refusal.read body = .ok refusal) : reply.refusal deadline = refusal := by
  simp [Http.Reply.refusal, hcontent, hread, Except.toOption]

theorem refusal_of_unreadable {fault : Json.Malformed}
    (hcontent : reply.content deadline = .ok body)
    (hread : Json.read Refusal.read body = .error fault) : reply.refusal deadline = {} := by
  simp [Http.Reply.refusal, hcontent, hread, Except.toOption]

/-! ## Refusals -/

theorem failure_of_deniesAccess (hdenied : reply.status.deniesAccess) :
    (reply.failure deadline).2 = [] := by
  unfold Http.Reply.failure
  rcases hdenied with hcode | hcode
  · rw [if_pos (Status.eq_unauthorized_iff.mpr hcode)]
  · rw [if_neg (by simp [Status.eq_unauthorized_iff, hcode]),
      if_pos (Status.eq_forbidden_iff.mpr hcode)]

theorem failure_of_not_deniesAccess (hdenied : ¬ reply.status.deniesAccess) :
    reply.failure deadline =
      (.ofMessage ((reply.refusal deadline).description reply.status),
        (reply.refusal deadline).promotions) := by
  rw [Status.deniesAccess, not_or] at hdenied
  unfold Http.Reply.failure
  rw [if_neg (mt Status.eq_unauthorized_iff.mp hdenied.1),
    if_neg (mt Status.eq_forbidden_iff.mp hdenied.2)]

/-- The words of a refusal. -/
theorem message_failure (hcontent : reply.content deadline = .ok body) :
    (reply.failure deadline).1.message = refusalWords reply.status body := by
  unfold refusalWords
  by_cases hunauthorized : reply.status.code = 401
  · rw [if_pos hunauthorized, Http.Reply.failure,
      if_pos (Status.eq_unauthorized_iff.mpr hunauthorized), Failure.message_ofMessage]
  · rw [if_neg hunauthorized]
    by_cases hforbidden : reply.status.code = 403
    · rw [if_pos hforbidden, Http.Reply.failure,
        if_neg (mt Status.eq_unauthorized_iff.mp hunauthorized),
        if_pos (Status.eq_forbidden_iff.mpr hforbidden), Failure.message_ofMessage]
    · have hdenied : ¬ reply.status.deniesAccess := not_or.mpr ⟨hunauthorized, hforbidden⟩
      rw [if_neg hforbidden, failure_of_not_deniesAccess hdenied, Failure.message_ofMessage]
      cases hread : Json.read Refusal.read body with
      | ok refusal => rw [refusal_of_read hcontent hread, Refusal.description_eq_words]
      | error fault =>
          rw [refusal_of_unreadable hcontent hread, Refusal.description_eq_words]
          rfl

/-- The promotions of a refusal are those that its body lists, unless access is
denied. -/
theorem mem_failure_iff (hcontent : reply.content deadline = .ok body)
    {promotions : List Promotion} (hpromotions : promotions ≠ []) :
    (reply.failure deadline).2 = promotions ↔
      ¬ reply.status.deniesAccess ∧
        ∃ refusal, Json.read Refusal.read body = .ok refusal ∧
          refusal.promotions = promotions := by
  by_cases hdenied : reply.status.deniesAccess
  · rw [failure_of_deniesAccess hdenied]
    simp [hdenied, eq_comm, hpromotions]
  · rw [failure_of_not_deniesAccess hdenied]
    cases hread : Json.read Refusal.read body with
    | ok refusal => simp [hdenied, refusal_of_read hcontent hread]
    | error fault =>
        simp [refusal_of_unreadable hcontent hread, eq_comm, hpromotions]

/-! ## Results -/

/-- Promoting into a stage succeeds exactly on a success whose body holds the
promotion. -/
theorem stageResult_eq_ok_iff (hcontent : reply.content deadline = .ok body)
    {promotion : Promotion} :
    reply.stageResult deadline = .ok promotion ↔
      reply.status.isSuccess = true ∧ Json.read readStageReply body = .ok (some promotion) := by
  unfold Http.Reply.stageResult
  by_cases hsuccess : reply.status.isSuccess = true
  · rw [if_pos hsuccess]
    cases hdecode : reply.decode deadline "parse promote stage response" readStageReply with
    | error failure =>
        have hread : ¬ Json.read readStageReply body = .ok (some promotion) := by
          rw [← decode_eq_ok_iff hcontent, hdecode]
          exact nofun
        simp [hread]
    | ok found =>
        rw [decode_eq_ok_iff hcontent] at hdecode
        cases found <;> simp [hsuccess, hdecode]
  · rw [if_neg hsuccess]
    simp [hsuccess]

theorem stageResult_of_refused (hsuccess : ¬ reply.status.isSuccess = true) :
    reply.stageResult deadline = .error (reply.failure deadline).1 := by
  rw [Http.Reply.stageResult, if_neg hsuccess]

theorem subscribersResult_of_refused (hsuccess : ¬ reply.status.isSuccess = true) :
    reply.subscribersResult deadline =
      { value :=
          if (reply.failure deadline).2 = [] then none else some (reply.failure deadline).2
        failure := some (reply.failure deadline).1 } := by
  rw [Http.Reply.subscribersResult, if_neg hsuccess]
  simp

/-- A reply of success leaves a value or a failure, and never both. -/
theorem subscribersResult_of_success (hcontent : reply.content deadline = .ok body)
    (hsuccess : reply.status.isSuccess = true) :
    (∃ promotions, Json.read readSubscribersReply body = .ok promotions ∧
        reply.subscribersResult deadline = { value := some promotions }) ∨
      (∃ fault failure, Json.read readSubscribersReply body = .error fault ∧
        reply.subscribersResult deadline = { failure := some failure }) := by
  unfold Http.Reply.subscribersResult
  rw [if_pos hsuccess]
  cases hread : Json.read readSubscribersReply body with
  | ok promotions =>
      rw [(decode_eq_ok_iff hcontent).mpr hread]
      exact .inl ⟨promotions, rfl, rfl⟩
  | error fault =>
      cases hdecode : reply.decode deadline "parse promote subscribers response"
          readSubscribersReply with
      | ok promotions =>
          rw [decode_eq_ok_iff hcontent, hread] at hdecode
          contradiction
      | error failure => exact .inr ⟨fault, failure, rfl, rfl⟩

/-- Promoting to subscribers returns promotions without a failure exactly on a
success whose body lists them. -/
theorem subscribersResult_value_iff (hcontent : reply.content deadline = .ok body)
    {promotions : List Promotion} :
    ((reply.subscribersResult deadline).value = some promotions ∧
        (reply.subscribersResult deadline).failure = none) ↔
      reply.status.isSuccess = true ∧
        Json.read readSubscribersReply body = .ok promotions := by
  by_cases hsuccess : reply.status.isSuccess = true
  · rcases subscribersResult_of_success hcontent hsuccess with
      ⟨found, hread, hresult⟩ | ⟨fault, failure, hread, hresult⟩
    · simp [hresult, hsuccess, hread]
    · simp [hresult, hread]
  · simp [subscribersResult_of_refused hsuccess, hsuccess]

/-- It returns promotions beside a failure exactly on a refusal that lists some and
does not deny access. -/
theorem subscribersResult_partial_iff (hcontent : reply.content deadline = .ok body)
    {promotions : List Promotion} :
    ((reply.subscribersResult deadline).value = some promotions ∧
        (reply.subscribersResult deadline).failure ≠ none) ↔
      ¬ reply.status.isSuccess = true ∧ ¬ reply.status.deniesAccess ∧ promotions ≠ [] ∧
        ∃ refusal, Json.read Refusal.read body = .ok refusal ∧
          refusal.promotions = promotions := by
  by_cases hsuccess : reply.status.isSuccess = true
  · rcases subscribersResult_of_success hcontent hsuccess with
      ⟨found, hread, hresult⟩ | ⟨fault, failure, hread, hresult⟩
    · simp [hresult, hsuccess]
    · simp [hresult, hsuccess]
  · rw [subscribersResult_of_refused hsuccess]
    -- An empty list is left out, so that a value is never empty beside a failure.
    have hvalue : ((if (reply.failure deadline).2 = [] then none
          else some (reply.failure deadline).2) = some promotions) ↔
        promotions ≠ [] ∧ (reply.failure deadline).2 = promotions := by
      split
      case isTrue hnone => simp [hnone, eq_comm]
      case isFalse hsome =>
        constructor
        · rintro ⟨rfl⟩
          exact ⟨hsome, rfl⟩
        · rintro ⟨-, rfl⟩
          rfl
    by_cases hpromotions : promotions = []
    · simp [hpromotions]
    · simp [hvalue, mem_failure_iff hcontent hpromotions, hsuccess, and_left_comm]

/-- An operation that returns nothing has failed. -/
theorem subscribersResult_total (hcontent : reply.content deadline = .ok body) :
    (reply.subscribersResult deadline).value = none →
      (reply.subscribersResult deadline).failure ≠ none := by
  by_cases hsuccess : reply.status.isSuccess = true
  · rcases subscribersResult_of_success hcontent hsuccess with
      ⟨found, hread, hresult⟩ | ⟨fault, failure, hread, hresult⟩
    · simp [hresult]
    · simp [hresult]
  · simp [subscribersResult_of_refused hsuccess]

end Http.Reply

/-! ## The operations -/

/-- The body of a refusal that lists one promotion. -/
def refusalBody : Bytes :=
  Text.encode
    ("\x7b\"code\":\"internal\"," ++
      "\"promotions\":[\x7b\"metadata\":\x7b\"name\":\"promo-2\"\x7d\x7d]\x7d")

theorem read_refusalBody :
    Json.read Refusal.read refusalBody =
      .ok { code := some "internal", promotions := [.named "promo-2"] } := by
  cbv

/-- What the two operations return for one reply, whatever its status and whatever
bytes its body holds.

* Promoting into a stage returns a promotion exactly on a success whose body holds
  it in a member that is neither missing nor null.
* Promoting to subscribers returns promotions alone exactly on a success whose body
  lists them, and promotions beside a failure exactly on a refusal that does not
  deny access and lists some.  In all other cases it returns a failure alone.
* On every refusal both operations fail, and in the same words. -/
theorem operations_classify_reply (client : Client) (network : Http.Network)
    (deadline : Deadline) (reply : Http.Reply) (body : Bytes) (project : String)
    (freight : Freight) (stage : String)
    (hdeadline : deadline.isExpired = false)
    (hstage : client.Receives network .promoteStage reply)
    (hsubscribers : client.Receives network .promoteSubscribers reply)
    (hcontent : reply.content deadline = .ok body) :
    let promoted := ((client.service network).promoteToStage deadline project freight stage).value
    let fanned :=
      ((client.service network).promoteToSubscribers deadline project freight stage).value
    let success := 200 ≤ reply.status.code ∧ reply.status.code ≤ 299
    (∀ promotion, promoted = .ok promotion ↔ success ∧ HoldsPromotion body promotion) ∧
    (∀ promotions, (fanned.value = some promotions ∧ fanned.failure = none) ↔
      success ∧ ListsPromotions body promotions) ∧
    (∀ promotions, (fanned.value = some promotions ∧ fanned.failure ≠ none) ↔
      ¬ success ∧ ¬ reply.status.deniesAccess ∧ promotions ≠ [] ∧
        ∃ refusal, StatesRefusal body refusal ∧ refusal.promotions = promotions) ∧
    (fanned.value = none → fanned.failure ≠ none) ∧
    (¬ success → ∃ failure : Failure, promoted = .error failure ∧
      fanned.failure = some failure ∧ failure.message = refusalWords reply.status body) := by
  intro promoted fanned success
  -- With the reply at hand, both operations are functions of it.
  have hpromoted : promoted = reply.stageResult deadline :=
    Client.value_promoteToStage hdeadline hstage project freight stage
  have hfanned : fanned = reply.subscribersResult deadline :=
    Client.value_promoteToSubscribers hdeadline hsubscribers project freight stage
  simp only [success, ← Http.Status.isSuccess_iff, hpromoted, hfanned,
    ← read_stageReply_eq_some_iff, ← read_subscribersReply_eq_ok_iff, ← Refusal.read_eq_ok_iff]
  refine ⟨fun promotion => Http.Reply.stageResult_eq_ok_iff hcontent,
    fun promotions => Http.Reply.subscribersResult_value_iff hcontent,
    fun promotions => Http.Reply.subscribersResult_partial_iff hcontent,
    Http.Reply.subscribersResult_total hcontent, fun hrefused => ?_⟩
  refine ⟨(reply.failure deadline).1, Http.Reply.stageResult_of_refused hrefused, ?_,
    Http.Reply.message_failure hcontent⟩
  rw [Http.Reply.subscribersResult_of_refused hrefused]

/-- On a refusal that lists a promotion, promoting to subscribers returns it beside
the failure, and promoting into a stage fails in the same words. -/
theorem operations_classify_partial_refusal :
    let reply : Http.Reply := { status := ⟨500⟩, body := refusalBody }
    let service := Client.plain.service fun _ => .reply reply
    let freight := Freight.named "abc123"
    reply.content .none = .ok refusalBody ∧
      (service.promoteToSubscribers .none "my-project" freight "qa").value.value =
        some [.named "promo-2"] ∧
      ∃ failure : Failure,
        (service.promoteToStage .none "my-project" freight "qa").value = .error failure ∧
        failure.message = "internal (status 500 Internal Server Error)" := by
  intro reply service freight
  have hcontent : reply.content .none = .ok refusalBody := by rfl
  obtain ⟨-, -, hpartial, -, hrefused⟩ :=
    operations_classify_reply Client.plain (fun _ => .reply reply) .none reply refusalBody
      "my-project" freight "qa" (by rfl) (Client.receives_plain _ reply)
      (Client.receives_plain _ reply) hcontent
  refine ⟨hcontent, ?_, ?_⟩
  · exact ((hpartial [.named "promo-2"]).mpr
      ⟨by decide, by decide, by simp, _, Refusal.read_eq_ok_iff.mp read_refusalBody, rfl⟩).1
  · obtain ⟨failure, hfailure, -, hmessage⟩ := hrefused (by decide)
    refine ⟨failure, hfailure, hmessage.trans ?_⟩
    unfold refusalWords
    rw [read_refusalBody]
    decide +kernel

end FreightPromotion
