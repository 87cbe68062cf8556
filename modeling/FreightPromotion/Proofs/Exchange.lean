import FreightPromotion.Proofs.Addresses

/-!
# When a message leaves the client

An operation of the client posts at most one message.  `Client.Sends` names the
three things that have to hold for it to leave: time is left, the message can be
built, and the connection to its address is accepted.  What the server does with
it after that has no influence (`posts_post`), because the reply is only looked at
when the message is on its way.

`Client.Receives` says that the server replies to an operation.  The operations
are then functions of the reply (`value_promoteToStage`,
`value_promoteToSubscribers`).
-/

namespace FreightPromotion

variable {client : Client} {network : Http.Network} {deadline : Deadline}
  {operation : Operation} {body : String}

namespace Client

/-! ## Building the message -/

/-- The message of an operation to this URL. -/
def messageTo (client : Client) (operation : Operation) (body : String) (url : Http.Url) :
    Http.Post where
  address := client.address operation
  target := url.target
  userAuthorization := url.user.map Http.User.authorization
  tokenAuthorization := client.authorization
  body := body

/-- A message can be built when its address can be read and the token fits into a
header. -/
theorem message_eq_ok_iff {url : Http.Url} {message : Http.Post} :
    client.message operation body = .ok (url, message) ↔
      Http.Url.read (client.address operation) = .ok url ∧
        client.authorization.all isHeaderText = true ∧
        message = client.messageTo operation body url := by
  unfold Client.message
  cases hread : Http.Url.read (client.address operation) with
  | error fault => simp
  | ok found =>
      by_cases hheader : client.authorization.all isHeaderText = true
      · simp only [hheader, if_true, Except.ok.injEq, Prod.mk.injEq, true_and]
        constructor
        · rintro ⟨rfl, rfl⟩
          exact ⟨rfl, rfl⟩
        · rintro ⟨rfl, rfl⟩
          exact ⟨rfl, rfl⟩
      · simp [hheader]

/-! ## Sending it -/

/-- The message of an operation leaves the client: time is left, the message can
be built, and the connection to its address is accepted. -/
def Sends (client : Client) (network : Http.Network) (deadline : Deadline)
    (operation : Operation) (body : String) (message : Http.Post) : Prop :=
  deadline.isExpired = false ∧
    ∃ url, client.message operation body = .ok (url, message) ∧ network (client.route url) ≠ .refused

theorem Sends.unique {first second : Http.Post}
    (hfirst : client.Sends network deadline operation body first)
    (hsecond : client.Sends network deadline operation body second) : first = second := by
  obtain ⟨-, url, hurl, -⟩ := hfirst
  obtain ⟨-, other, hother, -⟩ := hsecond
  rw [hurl] at hother
  injection hother with hpair
  exact (Prod.mk.injEq .. ▸ hpair).2

/-- A message that is sent is the only one, and otherwise there is none. -/
theorem posts_post (client : Client) (network : Http.Network) (deadline : Deadline)
    (operation : Operation) (body : String) :
    let posts := Traced.posts (client.post network deadline operation body).steps
    (∃ message, client.Sends network deadline operation body message ∧ posts = [message]) ∨
      ((∀ message, ¬ client.Sends network deadline operation body message) ∧ posts = []) := by
  intro posts
  cases hexpired : deadline.isExpired with
  | true =>
      refine .inr ⟨fun message hsends => ?_, ?_⟩
      · rw [hsends.1] at hexpired
        contradiction
      · simp [posts, Client.post, hexpired, Traced.posts]
  | false =>
      cases hmessage : client.message operation body with
      | error cause =>
          refine .inr ⟨fun message hsends => ?_, ?_⟩
          · obtain ⟨-, url, hurl, -⟩ := hsends
            rw [hurl] at hmessage
            contradiction
          · simp [posts, Client.post, hexpired, hmessage, Traced.posts, Traced.log, Traced.step]
      | ok found =>
          obtain ⟨url, message⟩ := found
          -- A refused connection is the only answer that comes before the message.
          cases hanswer : network (client.route url) with
          | refused =>
              refine .inr ⟨fun other hsends => ?_, ?_⟩
              · obtain ⟨-, place, hplace, haccepted⟩ := hsends
                rw [hplace] at hmessage
                injection hmessage with hpair
                obtain ⟨rfl, rfl⟩ := Prod.mk.inj hpair
                exact haccepted hanswer
              · simp [posts, Client.post, hexpired, hmessage, hanswer, Traced.posts, Traced.log,
                  Traced.step]
          | closed | silent | reply reply =>
              refine .inl ⟨message, ⟨hexpired, url, hmessage, by simp [hanswer]⟩, ?_⟩
              simp [posts, Client.post, hexpired, hmessage, hanswer, Traced.posts, Traced.log,
                Traced.step]

theorem Sends.posts_eq {message : Http.Post}
    (hsends : client.Sends network deadline operation body message) :
    Traced.posts (client.post network deadline operation body).steps = [message] := by
  rcases client.posts_post network deadline operation body with ⟨sent, hsent, hposts⟩ | ⟨hnone, -⟩
  · rw [hposts, hsent.unique hsends]
  · exact absurd hsends (hnone message)

/-- Clients take the same course if they differ in nothing but the routes of their messages, and
these are answered alike. -/
theorem post_congr {other : Client} {otherNetwork : Http.Network}
    (hbase : other.baseAddress = client.baseAddress) (htoken : other.token = client.token)
    (hroute : ∀ url, otherNetwork (other.route url) = network (client.route url)) :
    other.post otherNetwork deadline operation body =
      client.post network deadline operation body := by
  have haddress : other.address operation = client.address operation := by
    rw [Client.address, Client.address, hbase]
  have hheader : other.authorization = client.authorization := by
    rw [Client.authorization, Client.authorization, htoken]
  have hmessage : other.message operation body = client.message operation body := by
    simp only [Client.message, Client.addressCause, haddress, hheader]
  simp only [Client.post, Client.sendingEvent, haddress, hmessage, hroute]

/-- Where no connection is accepted, nothing is sent. -/
theorem posts_post_of_refused (client : Client) (deadline : Deadline) (operation : Operation)
    (body : String) :
    Traced.posts (client.post (fun _ => .refused) deadline operation body).steps = [] := by
  rcases client.posts_post (fun _ => .refused) deadline operation body with
    ⟨message, ⟨-, url, -, haccepted⟩, -⟩ | ⟨-, hposts⟩
  · exact absurd rfl haccepted
  · exact hposts

/-- A client that sends nothing does what it does where no connection is accepted. -/
theorem post_of_unsent
    (hposts : Traced.posts (client.post network deadline operation body).steps = []) :
    client.post network deadline operation body =
      client.post (fun _ => .refused) deadline operation body := by
  cases hexpired : deadline.isExpired with
  | true => simp only [Client.post, hexpired, if_true]
  | false =>
      cases hmessage : client.message operation body with
      | error cause => simp only [Client.post, hmessage]
      | ok found =>
          obtain ⟨url, message⟩ := found
          have hanswer : network (client.route url) = .refused := by
            by_contra haccepted
            rcases client.posts_post network deadline operation body with
              ⟨sent, -, hsent⟩ | ⟨hnone, -⟩
            · rw [hsent] at hposts
              contradiction
            · exact hnone message ⟨hexpired, url, hmessage, haccepted⟩
          simp only [Client.post, hmessage, hanswer]

/-! ## The operations -/

/-- An operation takes the steps of its one message. -/
theorem steps_promoteToStage (client : Client) (network : Http.Network) (deadline : Deadline)
    (project : String) (freight : Freight) (stage : String) :
    ((client.service network).promoteToStage deadline project freight stage).steps =
      (client.post network deadline .promoteStage
        (requestDocument project freight stage).compact).steps := by
  simp only [Client.service, Traced.steps_bind]
  split <;> simp

theorem steps_promoteToSubscribers (client : Client) (network : Http.Network)
    (deadline : Deadline) (project : String) (freight : Freight) (stage : String) :
    ((client.service network).promoteToSubscribers deadline project freight stage).steps =
      (client.post network deadline .promoteSubscribers
        (requestDocument project freight stage).compact).steps := by
  simp only [Client.service, Traced.steps_bind]
  split <;> simp

/-! ## Replies -/

/-- The server replies to an operation of the client. -/
def Receives (client : Client) (network : Http.Network) (operation : Operation)
    (reply : Http.Reply) : Prop :=
  ∃ url, Http.Url.read (client.address operation) = .ok url ∧
    client.authorization.all isHeaderText = true ∧ network (client.route url) = .reply reply

variable {reply : Http.Reply}

theorem value_post (hdeadline : deadline.isExpired = false)
    (hreceives : client.Receives network operation reply) :
    (client.post network deadline operation body).value = .ok reply := by
  obtain ⟨url, hread, hheader, hanswer⟩ := hreceives
  have hmessage : client.message operation body =
      .ok (url, client.messageTo operation body url) :=
    message_eq_ok_iff.mpr ⟨hread, hheader, rfl⟩
  simp [Client.post, hdeadline, hmessage, hanswer]

/-- What promoting into a stage returns when the server replies. -/
theorem value_promoteToStage (hdeadline : deadline.isExpired = false)
    (hreceives : client.Receives network .promoteStage reply)
    (project : String) (freight : Freight) (stage : String) :
    ((client.service network).promoteToStage deadline project freight stage).value =
      reply.stageResult deadline := by
  simp only [Client.service, Traced.value_bind, value_post hdeadline hreceives, Traced.value_pure]

/-- What promoting to subscribers returns when the server replies. -/
theorem value_promoteToSubscribers (hdeadline : deadline.isExpired = false)
    (hreceives : client.Receives network .promoteSubscribers reply)
    (project : String) (freight : Freight) (stage : String) :
    ((client.service network).promoteToSubscribers deadline project freight stage).value =
      reply.subscribersResult deadline := by
  simp only [Client.service, Traced.value_bind, value_post hdeadline hreceives, Traced.value_pure]

/-! ## A client with a server -/

/-- A client of the server at `http://s`, without a token. -/
def plain : Client := ⟨"http://s", none, false⟩

theorem read_address_plain (operation : Operation) :
    Http.Url.read (plain.address operation) = .ok ⟨false, "s", 80, operation.path, none⟩ := by
  have htext : Http.Url.IsAuthority ['s'] := .of_all (by decide) (by decide)
  have hread : Http.Url.readAuthority Http.Host.read ['s'] = .ok ⟨[], "s", none⟩ := by cbv
  have hbase : plain.baseAddress = Http.Url.scheme false ++ "://" ++ String.ofList ['s'] := by
    decide
  rw [plain.read_address false hbase htext hread]
  cbv

/-- A client of the same server with this token, at an address in which a user is named. -/
def ofUser (token : Option String) : Client := ⟨"http://ci:s3cret@s", token, false⟩

theorem read_address_ofUser (token : Option String) (operation : Operation) :
    Http.Url.read ((ofUser token).address operation) =
      .ok ⟨false, "s", 80, operation.path, some ⟨"ci", some "s3cret"⟩⟩ := by
  have htext : Http.Url.IsAuthority "ci:s3cret@s".toList := .of_all (by decide) (by decide)
  have hread : Http.Url.readAuthority Http.Host.read "ci:s3cret@s".toList =
      .ok ⟨"ci:s3cret".toList, "s", none⟩ := by
    cbv
  have huser : Http.User.read "ci:s3cret".toList = some ⟨"ci", some "s3cret"⟩ := by cbv
  have hbase : "http://ci:s3cret@s" =
      Http.Url.scheme false ++ "://" ++ String.ofList "ci:s3cret@s".toList := by
    decide
  rw [(ofUser token).read_address false hbase htext hread, huser]
  rfl

/-- A server that gives one reply to everything replies to the client. -/
theorem receives_plain (operation : Operation) (reply : Http.Reply) :
    plain.Receives (fun _ => .reply reply) operation reply :=
  ⟨_, read_address_plain operation, rfl, rfl⟩

end Client

end FreightPromotion
