import FreightPromotion.Proofs.Expiry
import FreightPromotion.Proofs.Json.PrintedObjects

/-!
# The words of the server

A server that refuses explains itself by a code and a message in the body of its reply
(`Explains`), and the client shows both.  It reads them together with the promotions that were
created all the same, though, and one member that cannot be read spoils the whole refusal.  The
words of the server then give way to the status of its reply.

So what the explanation depends on is the member for the promotions, and nothing else
(`explanation_shown_iff`).  It is read, and it counts, also where only one promotion was asked for
and none of those that are listed there would be returned.
-/

namespace FreightPromotion

open FreightPromotion.Json (Arrangement HasText IsNull IsObject Says Value memberNesting)
open FreightPromotion.Text (Bytes encode)

/-! ## Explanations -/

/-- The body is an object without repeated members, and explains a refusal by this code and this
message.  What else it holds is left open. -/
structure Explains (body : Bytes) (members : List (String × Bytes)) (code message : String) :
    Prop where
  object : IsObject body members
  distinct : (members.map Prod.fst).Nodup
  hasCode : HasText members "code" code
  hasMessage : HasText members "message" message
  code_ne : code ≠ ""
  message_ne : message ≠ ""

/-- What was created all the same can be read: there is no member for it, or a list of
promotions. -/
def ListsCreated (members : List (String × Bytes)) : Prop :=
  ∃ promotions, Says members "promotions" (Json.readList Promotion.read memberNesting) [] promotions

variable {body : Bytes} {members : List (String × Bytes)} {code message : String}

theorem listsCreated_of_missing (hmissing : members.lookup "promotions" = none) :
    ListsCreated members :=
  ⟨[], by simp only [Says, hmissing]⟩

/-- Null is not a list of promotions, not even an empty one. -/
theorem not_listsCreated_of_null {input after : Bytes}
    (hlookup : members.lookup "promotions" = some input) (hnull : IsNull input after) :
    ¬ ListsCreated members := by
  rintro ⟨promotions, hsays⟩
  simp only [Says, hlookup] at hsays
  obtain ⟨left, hread⟩ := hsays
  obtain ⟨rest, hnext, -⟩ := hnull
  exact Json.solid_readList.null hnext hread

/-- A refusal is read from an explanation with its code and its message, if what was created can
be read as well. -/
theorem Explains.statesRefusal_iff (hexplains : Explains body members code message)
    {refusal : Refusal} :
    StatesRefusal body refusal ↔
      refusal.code = some code ∧ refusal.message = some message ∧
        Says members "promotions" (Json.readList Promotion.read memberNesting) []
          refusal.promotions := by
  simp only [StatesRefusal, hexplains.object.document_iff hexplains.distinct, exists_eq_left]
  rw [Json.says_filter_mem_iff (by decide), Json.says_filter_mem_iff (by decide),
    Json.says_filter_mem_iff (by decide), hexplains.hasCode.says_iff, hexplains.hasMessage.says_iff]

/-! ## Bodies that explain themselves -/

/-- The members of a body that explains a refusal, with others after the code and the message. -/
def explaining (code message : String) (others : List Json.Member) : List Json.Member :=
  ("code", .text code) :: ("message", .text message) :: others

/-- Whatever the other members are, such a body explains the refusal. -/
theorem explains_printed {arrangement : Arrangement} {others : List Json.Member}
    (hdistinct : ((explaining code message others).map Prod.fst).Nodup)
    (hends : ∀ member ∈ others, arrangement.Ends 1 member.2) (hcode : code ≠ "")
    (hmessage : message ≠ "") :
    ∃ found, Explains (encode (arrangement.text 0 (.object (explaining code message others))))
        found code message ∧ arrangement.DueAs 1 (explaining code message others) found := by
  have hends : ∀ member ∈ explaining code message others, arrangement.Ends 1 member.2 := by
    simpa [explaining, arrangement.ends_text] using hends
  obtain ⟨found, hobject, hdue⟩ := arrangement.isObject_printed (List.forall_mem_nil _) hends
  rw [List.append_nil] at hobject
  refine ⟨found, ⟨hobject, by rwa [Json.Matches.keys hdue], ?_, ?_, hcode, hmessage⟩, hdue⟩
  · exact arrangement.hasText_of_dueAs hdue (by simp [explaining])
  · exact arrangement.hasText_of_dueAs hdue (by simp [explaining, List.lookup_cons])

/-- A server tells why a stage is locked, and adds a member that is null. -/
def lockedWith (name : String) : List Json.Member :=
  explaining "internal" "stage qa is locked" [(name, .null)]

theorem explains_lockedWith (name : String) (hcode : name ≠ "code") (hmessage : name ≠ "message") :
    ∃ found, Explains (encode (Value.object (lockedWith name)).compact) found
        "internal" "stage qa is locked" ∧ Arrangement.compact.DueAs 1 (lockedWith name) found := by
  have hdistinct : ((lockedWith name).map Prod.fst).Nodup := by
    simp [lockedWith, explaining, hcode.symm, hmessage.symm]
  have hends : ∀ member ∈ [(name, Value.null)], Arrangement.compact.Ends 1 member.2 :=
    List.forall_mem_singleton.mpr Arrangement.compact.ends_null
  exact explains_printed hdistinct hends (by decide) (by decide)

/-! ## Words -/

namespace Http.Status

theorem colon_notMem_text (status : Status) : ':' ∉ status.text.toList := by
  have hphrases : ∀ phrase ∈ phrases, ':' ∉ phrase.2.toList := by decide +kernel
  have hphrase : ':' ∉ ((phrases.lookup status.code).getD "<unknown status code>").toList := by
    cases hlookup : phrases.lookup status.code with
    | none => decide
    | some phrase =>
        obtain ⟨before, after, hlist, -⟩ := List.lookup_eq_some_iff.mp hlookup
        exact hphrases (status.code, phrase) (by simp [hlist])
  rw [text, String.toList_append, String.toList_append, List.mem_append, List.mem_append]
  rintro ((hdigit | hspace) | hword)
  · exact absurd (isDigit_of_mem_toString hdigit) (by decide)
  · exact absurd hspace (by decide)
  · exact hphrase hword

/-- The words for a status alone are not those for a code and a message. -/
theorem refusedText_ne_words (status : Status) (code message : String) :
    status.refusedText ≠ code ++ ": " ++ message := by
  intro hsame
  have hletters : ':' ∉ "request failed with status ".toList := by decide
  have hparts : ':' ∈ "request failed with status ".toList ++ status.text.toList := by
    have hcolon : ':' ∈ (code ++ ": " ++ message).toList := by simp
    rw [← hsame] at hcolon
    rwa [← String.toList_append]
  exact (List.mem_append.mp hparts).elim hletters status.colon_notMem_text

end Http.Status

namespace Http.Reply

variable {reply : Http.Reply} {deadline : Deadline}

/-- The server is quoted if what was created can be read. -/
theorem failure_of_explained (hcontent : reply.content deadline = .ok body)
    (hdenied : ¬ reply.status.deniesAccess) (hexplains : Explains body members code message)
    (hlists : ListsCreated members) :
    (reply.failure deadline).1 = .ofMessage (code ++ ": " ++ message) := by
  obtain ⟨promotions, hsays⟩ := hlists
  have hread : Json.read Refusal.read body = .ok ⟨some code, some message, promotions⟩ :=
    Refusal.read_eq_ok_iff.mpr (hexplains.statesRefusal_iff.mpr ⟨rfl, rfl, hsays⟩)
  rw [failure_of_not_deniesAccess hdenied, refusal_of_read hcontent hread,
    Refusal.description_eq_words]
  simp [Status.words, hexplains.code_ne, hexplains.message_ne]

/-- Nothing of the explanation is left if what was created cannot be read. -/
theorem failure_of_spoiled (hcontent : reply.content deadline = .ok body)
    (hdenied : ¬ reply.status.deniesAccess) (hexplains : Explains body members code message)
    (hlists : ¬ ListsCreated members) :
    (reply.failure deadline).1 = .ofMessage reply.status.refusedText := by
  cases hread : Json.read Refusal.read body with
  | ok refusal =>
      obtain ⟨-, -, hsays⟩ :=
        hexplains.statesRefusal_iff.mp (Refusal.read_eq_ok_iff.mp hread)
      exact absurd ⟨refusal.promotions, hsays⟩ hlists
  | error fault =>
      rw [failure_of_not_deniesAccess hdenied, refusal_of_unreadable hcontent hread,
        Refusal.description_eq_words]
      rfl

end Http.Reply

/-! ## The operations -/

/-- Both operations fail alike on a refusal. -/
theorem Client.failures_of_refused {client : Client} {network : Http.Network} {deadline : Deadline}
    {reply : Http.Reply} (hdeadline : deadline.isExpired = false)
    (hstage : client.Receives network .promoteStage reply)
    (hsubscribers : client.Receives network .promoteSubscribers reply)
    (hrefused : ¬ (200 ≤ reply.status.code ∧ reply.status.code ≤ 299))
    (project : String) (freight : Freight) (stage : String) :
    let service := client.service network
    (service.promoteToStage deadline project freight stage).value =
        .error (reply.failure deadline).1 ∧
      (service.promoteToSubscribers deadline project freight stage).value.failure =
        some (reply.failure deadline).1 := by
  intro service
  have hsuccess : ¬ reply.status.isSuccess = true := mt Http.Status.isSuccess_iff.mp hrefused
  constructor
  · rw [Client.value_promoteToStage hdeadline hstage,
      Http.Reply.stageResult_of_refused hsuccess]
  · rw [Client.value_promoteToSubscribers hdeadline hsubscribers,
      Http.Reply.subscribersResult_of_refused hsuccess]

/-- What the two operations say of a refusal that explains itself, whatever else its body holds.
They show the code and the message of the server exactly if what was created can be read, and
otherwise the status of the reply.  This holds of the promotion into a stage as well, which
returns nothing of what was created. -/
theorem explanation_shown_iff (client : Client) (network : Http.Network) (deadline : Deadline)
    (reply : Http.Reply) (body : Bytes) (members : List (String × Bytes)) (code message : String)
    (project : String) (freight : Freight) (stage : String)
    (hdeadline : deadline.isExpired = false)
    (hstage : client.Receives network .promoteStage reply)
    (hsubscribers : client.Receives network .promoteSubscribers reply)
    (hcontent : reply.content deadline = .ok body)
    (hrefused : ¬ (200 ≤ reply.status.code ∧ reply.status.code ≤ 299))
    (hdenied : ¬ reply.status.deniesAccess) (hexplains : Explains body members code message) :
    let service := client.service network
    ∃ failure : Failure,
      (service.promoteToStage deadline project freight stage).value = .error failure ∧
      (service.promoteToSubscribers deadline project freight stage).value.failure = some failure ∧
      (failure.message = code ++ ": " ++ message ↔ ListsCreated members) ∧
      (¬ ListsCreated members → failure.message = reply.status.refusedText) := by
  intro service
  obtain ⟨hstageValue, hsubscribersValue⟩ :=
    Client.failures_of_refused hdeadline hstage hsubscribers hrefused project freight stage
  refine ⟨(reply.failure deadline).1, hstageValue, hsubscribersValue, ?_⟩
  by_cases hlists : ListsCreated members
  · rw [Http.Reply.failure_of_explained hcontent hdenied hexplains hlists,
      Failure.message_ofMessage]
    exact ⟨iff_of_true rfl hlists, fun hspoiled => absurd hlists hspoiled⟩
  · rw [Http.Reply.failure_of_spoiled hcontent hdenied hexplains hlists,
      Failure.message_ofMessage]
    have hwords := reply.status.refusedText_ne_words code message
    exact ⟨iff_of_false hwords hlists, fun _ => rfl⟩

/-- Null in a member that the client does not know leaves the explanation as it is. -/
theorem explanation_shown_beside_unknown_member :
    let body := encode
      "\x7b\"code\":\"internal\",\"message\":\"stage qa is locked\",\"details\":null\x7d"
    let reply : Http.Reply := { status := ⟨500⟩, body }
    let service := Client.plain.service fun _ => .reply reply
    reply.content .none = .ok body ∧
      ∃ failure : Failure,
        (service.promoteToStage .none "my-project" (.named "abc123") "qa").value =
          .error failure ∧
        (service.promoteToSubscribers .none "my-project" (.named "abc123") "qa").value.failure =
          some failure ∧
        failure.message = "internal: stage qa is locked" := by
  intro body reply service
  have hbody : body = encode (Value.object (lockedWith "details")).compact :=
    congrArg encode (by decide +kernel)
  have hcontent : reply.content .none = .ok body := rfl
  obtain ⟨members, hexplains, hmembers⟩ :=
    explains_lockedWith "details" (by decide) (by decide)
  rw [← hbody] at hexplains
  obtain ⟨failure, hstage, hsubscribers, hshown, -⟩ :=
    explanation_shown_iff Client.plain (fun _ => .reply reply) .none reply body members "internal"
      "stage qa is locked" "my-project" (.named "abc123") "qa" rfl (Client.receives_plain _ reply)
      (Client.receives_plain _ reply) hcontent (by decide) (by decide) hexplains
  have hmissing : members.lookup "promotions" = none :=
    hmembers.lookup_eq_none (by simp [lockedWith, explaining, List.lookup_cons])
  exact ⟨hcontent, failure, hstage, hsubscribers,
    hshown.mpr (listsCreated_of_missing hmissing)⟩

/-- Null in the member for the promotions hides the explanation, also from who asked for the
promotion into a stage. -/
theorem explanation_hidden_by_null :
    let body := encode
      "\x7b\"code\":\"internal\",\"message\":\"stage qa is locked\",\"promotions\":null\x7d"
    let reply : Http.Reply := { status := ⟨500⟩, body }
    let service := Client.plain.service fun _ => .reply reply
    ∃ (members : List (String × Bytes)) (failure : Failure),
      reply.content .none = .ok body ∧
      Explains body members "internal" "stage qa is locked" ∧
      (service.promoteToStage .none "my-project" (.named "abc123") "qa").value = .error failure ∧
      (service.promoteToSubscribers .none "my-project" (.named "abc123") "qa").value.failure =
        some failure ∧
      failure.message ≠ "internal: stage qa is locked" ∧
      failure.message = "request failed with status 500 Internal Server Error" := by
  intro body reply service
  have hbody : body = encode (Value.object (lockedWith "promotions")).compact :=
    congrArg encode (by decide +kernel)
  have hcontent : reply.content .none = .ok body := rfl
  obtain ⟨members, hexplains, hmembers⟩ :=
    explains_lockedWith "promotions" (by decide) (by decide)
  rw [← hbody] at hexplains
  have hmember : (lockedWith "promotions").lookup "promotions" = some .null := by
    simp [lockedWith, explaining, List.lookup_cons]
  obtain ⟨input, hlookup, hinput⟩ := hmembers.lookup_eq_some hmember
  obtain ⟨after, hnull⟩ := Arrangement.compact.isNull_of_dueAt hinput
  have hspoiled : ¬ ListsCreated members := not_listsCreated_of_null hlookup hnull
  have hdeadline : Deadline.none.isExpired = false := rfl
  obtain ⟨hstage, hsubscribers⟩ :=
    Client.failures_of_refused hdeadline (Client.receives_plain .promoteStage reply)
      (Client.receives_plain .promoteSubscribers reply) (by decide) "my-project"
      (.named "abc123") "qa"
  have hmessage : (reply.failure .none).1.message = reply.status.refusedText := by
    rw [Http.Reply.failure_of_spoiled hcontent (by decide) hexplains hspoiled,
      Failure.message_ofMessage]
  refine ⟨members, _, hcontent, hexplains, hstage, hsubscribers, ?_, hmessage.trans ?_⟩
  · rw [hmessage]
    exact reply.status.refusedText_ne_words "internal" "stage qa is locked"
  · decide +kernel

end FreightPromotion
