import FreightPromotion.Proofs.Addresses
import FreightPromotion.Proofs.Attempts
import FreightPromotion.Proofs.Json.PrintedObjects

/-!
# A message identifies its request

The message that asks for a promotion carries the request in two places.  Its address names the
operation, and with it the kind of the selector.  Its body is an object of three texts, and the
name of the second one is the kind of the freight (`isTextObject_body`).

All of it can be read off the message again: the body has these texts and no others, and the
escaping of a text can be undone.  So two requests that the client sends in the same way are the
same (`Client.request_unique`).

Who sends it is said in headers.  The token of the settings is in one of them, and a user whom the
address names is in another, which the token has no part in.  A token that does not fit into a
header keeps the message from being sent at all (`posts_of_broken_token`).
-/

namespace FreightPromotion

open FreightPromotion.Json (IsTextObject Value)
open FreightPromotion.Text (encode)

/-! ## Bodies -/

/-- The member of a body that identifies the freight. -/
def Freight.member : Freight → String × String
  | .named name => ("freight", name)
  | .aliased name => ("freightAlias", name)

/-- The members of the body that asks for a request. -/
def Request.members (request : Request) : List (String × String) :=
  [("project", request.project), request.freight.member, ("stage", request.selector.stageName)]

theorem Freight.member_injective {freight other : Freight}
    (hmember : freight.member = other.member) : freight = other := by
  obtain ⟨hkey, htext⟩ := Prod.mk.inj hmember
  cases freight <;> cases other
  case named.named | aliased.aliased => exact congrArg _ htext
  case named.aliased | aliased.named => simp at hkey

theorem requestDocument_eq (project : String) (freight : Freight) (stage : String) :
    requestDocument project freight stage =
      .object ([("project", project), freight.member, ("stage", stage)].map fun text =>
        (text.1, .text text.2)) := by
  cases freight <;> rfl

/-- The body that asks for a request holds its texts, and nothing else. -/
theorem isTextObject_body (request : Request) :
    IsTextObject (encode request.body) request.members := by
  rw [Request.body, requestDocument_eq]
  exact Json.Arrangement.compact.isTextObject_printed 0 request.members

/-! ## Requests -/

/-- The operation and the texts of the body are all that there is to a request. -/
theorem Request.ext_of_members {request other : Request}
    (hoperation : request.operation = other.operation)
    (hmembers : request.members = other.members) : request = other := by
  obtain ⟨project, freight, selector⟩ := request
  obtain ⟨otherProject, otherFreight, otherSelector⟩ := other
  simp only [Request.members, List.cons.injEq, Prod.mk.injEq, true_and, and_true] at hmembers
  obtain ⟨rfl, hfreight, hstage⟩ := hmembers
  obtain rfl := Freight.member_injective hfreight
  cases selector <;> cases otherSelector
  case stage.stage | subscribersOf.subscribersOf =>
    obtain rfl : _ = _ := hstage
    rfl
  all_goals exact absurd hoperation (by simp [Request.operation])

/-- Two requests that a client sends in the same way are the same. -/
theorem Client.request_unique {client : Client} {request other : Request}
    (haddress : client.address request.operation = client.address other.operation)
    (hbody : request.body = other.body) : request = other := by
  have hmembers := isTextObject_body request
  rw [hbody] at hmembers
  exact Request.ext_of_members (Client.address_inj.mp haddress)
    (hmembers.unique (isTextObject_body other))

/-! ## Clients -/

/-- A client shows a token that is there and not empty. -/
theorem Settings.authorization_client (settings : Settings) (header : String) :
    settings.client.authorization = some header ↔
      ∃ token, settings.bearerToken = some token ∧ token ≠ "" ∧ header = "Bearer " ++ token := by
  simp only [Client.authorization, Settings.client, Option.map_eq_some_iff,
    Option.bind_eq_some_iff, given?_eq_some_iff]
  constructor
  · rintro ⟨shown, ⟨token, htoken, hne, rfl⟩, rfl⟩
    exact ⟨shown, htoken, hne, rfl⟩
  · rintro ⟨token, htoken, hne, rfl⟩
    exact ⟨token, ⟨token, htoken, hne, rfl⟩, rfl⟩

/-- Slashes at the end of the address of the server do not count. -/
theorem Settings.address_client_congr {settings other : Settings} {base : String}
    {count more : Nat} (haddress : settings.apiAddress = base ++ slashes count)
    (hother : other.apiAddress = base ++ slashes more) :
    other.client.address = settings.client.address := by
  have hbase : other.client.baseAddress = settings.client.baseAddress := by
    simp only [Settings.client, haddress, hother, trimSlashes_append_slashes]
  funext operation
  rw [Client.address, Client.address, hbase]

/-- A message that a client posts is the one for the URL that its address is read as. -/
theorem Client.mem_posts_post {client : Client} {network : Http.Network} {deadline : Deadline}
    {operation : Operation} {body : String} {message : Http.Post}
    (hmessage : message ∈ Traced.posts (client.post network deadline operation body).steps) :
    ∃ url, Http.Url.read (client.address operation) = .ok url ∧
      client.authorization.all isHeaderText = true ∧
      message = client.messageTo operation body url := by
  rcases client.posts_post network deadline operation body with
    ⟨sent, ⟨-, url, hbuilt, -⟩, hposts⟩ | ⟨-, hposts⟩
  · rw [hposts, List.mem_singleton] at hmessage
    exact ⟨url, hmessage ▸ Client.message_eq_ok_iff.mp hbuilt⟩
  · rw [hposts] at hmessage
    contradiction

section Messages

variable {client : Client} {options : Options} {request : Request} {network : Http.Network}
  {deadline : Deadline} {sink : Sink} {message : Http.Post}

/-- So is a message of a promotion. -/
theorem mem_posts_promote (hvalidate : options.validate = .ok request)
    (hmessage : message ∈ Traced.posts
      (promote deadline options (pure (.ok (client.service network))) sink).steps) :
    ∃ url, Http.Url.read (client.address request.operation) = .ok url ∧
      client.authorization.all Client.isHeaderText = true ∧
      message = client.messageTo request.operation request.body url := by
  rw [posts_promote_of_reached deadline sink hvalidate] at hmessage
  exact Client.mem_posts_post hmessage

/-- What is shown is text for a header, and so is the token in it. -/
theorem Settings.header_of_token {settings : Settings} {token : String}
    (htoken : settings.bearerToken = some token)
    (hheader : settings.client.authorization.all Client.isHeaderText = true) :
    Client.isHeaderText token = true := by
  rcases eq_or_ne token "" with rfl | hne
  · rfl
  · rw [(settings.authorization_client ("Bearer " ++ token)).mpr ⟨token, htoken, hne, rfl⟩,
      Option.all_some, Client.isHeaderText, String.toList_append, List.all_append,
      Bool.and_eq_true] at hheader
    exact hheader.2

/-- A token that does not fit into a header keeps the client from sending anything. -/
theorem posts_of_broken_token {settings : Settings} {token : String}
    (hvalidate : options.validate = .ok request) (htoken : settings.bearerToken = some token)
    (hbroken : Client.isHeaderText token = false) :
    Traced.posts
      (promote deadline options (pure (.ok (settings.client.service network))) sink).steps = [] := by
  refine List.eq_nil_iff_forall_not_mem.mpr fun message hmessage => ?_
  obtain ⟨-, -, hheader, -⟩ := mem_posts_promote hvalidate hmessage
  rw [Settings.header_of_token htoken hheader] at hbroken
  contradiction

/-- The one message at an address in which a user is named. -/
theorem exists_post_ofUser {settings : Settings} {token : Option String}
    (hvalidate : options.validate = .ok request)
    (hclient : settings.client = Client.ofUser token)
    (hheader : (Client.ofUser token).authorization.all Client.isHeaderText = true) :
    ∃ message, Traced.posts (promote .none options
        (pure (.ok (settings.client.service fun _ => .silent))) sink).steps = [message] ∧
      Http.Url.read message.address =
        .ok ⟨false, "s", 80, request.operation.path, some ⟨"ci", some "s3cret"⟩⟩ ∧
      message.authorization =
        "Basic Y2k6czNjcmV0" :: (Client.ofUser token).authorization.toList := by
  have hread := Client.read_address_ofUser token request.operation
  have huser : Http.User.authorization ⟨"ci", some "s3cret"⟩ = "Basic Y2k6czNjcmV0" := by decide
  rw [hclient, posts_promote_of_reached .none sink hvalidate]
  refine ⟨_, Client.Sends.posts_eq
    ⟨rfl, _, Client.message_eq_ok_iff.mpr ⟨hread, hheader, rfl⟩, nofun⟩, hread, ?_⟩
  rw [← huser]
  rfl

end Messages

/-- What a message says of the promotion that it asks for, whatever the options are that were
accepted, and for every address and token.

* It goes to the address of the server without the slashes at its end, followed by the path of the
  service and the name of the operation for the selector.
* Its body is an object of exactly three texts, which are the options that were given.
* It shows the user who is named in the address, if there is one, and after that the token, if there
  is one that is not empty.  A token that does not fit into a header is not shown, but then there is
  no message.

So the address and the body determine the request. -/
theorem message_identifies_request (settings : Settings) (options : Options) (request : Request)
    (network : Http.Network) (deadline : Deadline) (sink : Sink)
    (hvalidate : options.validate = .ok request) :
    let client := settings.client
    let messages := Traced.posts
      (promote deadline options (pure (.ok (client.service network))) sink).steps
    (settings.apiAddress ≠ "" → Client.ofSettings settings = .ok client) ∧
    (∀ message ∈ messages, message.address = client.address request.operation ∧
      message.body = request.body) ∧
    (∃ base freight stage label,
      (base.toList.getLast? ≠ some '/' ∧ ∃ count, settings.apiAddress = base ++ slashes count) ∧
      ((options.freightName ≠ "" ∧ options.freightAlias = "" ∧
          freight = ("freight", options.freightName)) ∨
        (options.freightName = "" ∧ options.freightAlias ≠ "" ∧
          freight = ("freightAlias", options.freightAlias))) ∧
      ((options.targetStage ≠ "" ∧ options.subscribersOfStage = "" ∧
          stage = options.targetStage ∧ label = "PromoteStage") ∨
        (options.targetStage = "" ∧ options.subscribersOfStage ≠ "" ∧
          stage = options.subscribersOfStage ∧ label = "PromoteSubscribers")) ∧
      client.address request.operation = base ++ servicePath ++ "/" ++ label ∧
      IsTextObject (encode request.body)
        [("project", options.project), freight, ("stage", stage)]) ∧
    (∀ (other : Settings) (base : String) (count more : Nat),
      settings.apiAddress = base ++ slashes count → other.apiAddress = base ++ slashes more →
        other.client.address = client.address) ∧
    (∀ message ∈ messages, ∃ url, Http.Url.read message.address = .ok url ∧
      message.authorization =
        (url.user.map Http.User.authorization).toList ++ message.tokenAuthorization.toList ∧
      ∀ header, message.tokenAuthorization = some header ↔
        ∃ token, settings.bearerToken = some token ∧ token ≠ "" ∧ header = "Bearer " ++ token) ∧
    (∀ token, settings.bearerToken = some token → Client.isHeaderText token = false →
      messages = []) ∧
    (∀ other : Request, client.address other.operation = client.address request.operation →
      other.body = request.body → other = request) := by
  intro client messages
  obtain ⟨hdescribe, -⟩ := Options.validate_eq_ok_iff.mp hvalidate
  refine ⟨Client.ofSettings_of_addressed settings, ?_, ?_,
    fun other base count more => Settings.address_client_congr, ?_,
    fun token htoken => posts_of_broken_token hvalidate htoken, fun other => Client.request_unique⟩
  · intro message hmessage
    obtain ⟨url, -, -, rfl⟩ := mem_posts_promote hvalidate hmessage
    exact ⟨rfl, rfl⟩
  · refine ⟨client.baseAddress, request.freight.member, request.selector.stageName,
      request.operation.label, trimSlashes_eq_iff.mp rfl, ?_, ?_, rfl, ?_⟩
    · refine hdescribe.freight.imp ?_ ?_
      · exact fun ⟨hname, halias, hfreight⟩ => ⟨hname, halias, congrArg _ hfreight⟩
      · exact fun ⟨hname, halias, hfreight⟩ => ⟨hname, halias, congrArg _ hfreight⟩
    · refine hdescribe.selector.imp ?_ ?_
      · rintro ⟨htarget, hsubscribers, hselector⟩
        refine ⟨htarget, hsubscribers, ?_⟩
        rw [Request.operation, hselector]
        exact ⟨rfl, rfl⟩
      · rintro ⟨htarget, hsubscribers, hselector⟩
        refine ⟨htarget, hsubscribers, ?_⟩
        rw [Request.operation, hselector]
        exact ⟨rfl, rfl⟩
    · rw [← hdescribe.project.2]
      exact isTextObject_body request
  · intro message hmessage
    obtain ⟨url, hread, -, rfl⟩ := mem_posts_promote hvalidate hmessage
    exact ⟨url, hread, rfl, settings.authorization_client⟩

/-- The promotion of an aliased piece of freight to subscribers, with a token, at an address in
which a user is named. -/
theorem message_identifies_aliased_fanout :
    let settings : Settings := { apiAddress := "http://ci:s3cret@s//", bearerToken := some "t" }
    let options : Options :=
      { project := "my-project", freightAlias := "wonky-wombat", subscribersOfStage := "qa" }
    let request : Request := ⟨"my-project", .aliased "wonky-wombat", .subscribersOf "qa"⟩
    let messages := Traced.posts
      (promote .none options (pure (.ok (settings.client.service fun _ => .silent))) .unlimited).steps
    options.validate = .ok request ∧
      IsTextObject (encode request.body)
        [("project", "my-project"), ("freightAlias", "wonky-wombat"), ("stage", "qa")] ∧
      ∃ message ∈ messages, message.body = request.body ∧
        message.authorization = ["Basic Y2k6czNjcmV0", "Bearer t"] := by
  intro settings options request messages
  have hvalidate : options.validate = .ok request := by rfl
  obtain ⟨-, hbodies, ⟨_, freight, stage, _, -, hfreight, hstage, -, htexts⟩, -, hheaders, -⟩ :=
    message_identifies_request settings options request (fun _ => .silent) .none .unlimited
      hvalidate
  rcases hfreight with ⟨hname, -⟩ | ⟨-, -, rfl⟩
  · exact absurd rfl hname
  · rcases hstage with ⟨htarget, -⟩ | ⟨-, -, rfl, -⟩
    · exact absurd rfl htarget
    · have hclient : settings.client = Client.ofUser (some "t") := by decide
      obtain ⟨message, hmessages, hread, -⟩ :=
        exists_post_ofUser hvalidate hclient (by decide +kernel)
      have hmem : message ∈ messages := by
        rw [show messages = [message] from hmessages]
        exact List.mem_singleton_self message
      obtain ⟨url, hurl, hshown, htoken⟩ := hheaders message hmem
      obtain rfl := Except.ok.inj (hread.symm.trans hurl)
      refine ⟨hvalidate, htexts, message, hmem, (hbodies message hmem).2, ?_⟩
      rw [hshown, (htoken "Bearer t").mpr ⟨"t", rfl, by decide, by decide⟩]
      decide

/-- A user who is named in the address is shown although there is no token, and a token with a
control character in it is not shown, because nothing is sent. -/
theorem header_shows_user_and_no_broken_token :
    let options : Options :=
      { project := "my-project", freightName := "abc123", targetStage := "qa" }
    let request : Request := ⟨"my-project", .named "abc123", .stage "qa"⟩
    let messages (settings : Settings) := Traced.posts
      (promote .none options (pure (.ok (settings.client.service fun _ => .silent))) .unlimited).steps
    options.validate = .ok request ∧
      (∃ message, messages { apiAddress := "http://ci:s3cret@s" } = [message] ∧
        message.authorization = ["Basic Y2k6czNjcmV0"]) ∧
      messages { apiAddress := "http://s", bearerToken := some "a\x01b" } = [] := by
  intro options request messages
  have hvalidate : options.validate = .ok request := by rfl
  have hclient : Settings.client { apiAddress := "http://ci:s3cret@s" } = Client.ofUser none := by
    decide
  obtain ⟨message, hmessages, -, hshown⟩ := exists_post_ofUser hvalidate hclient rfl
  exact ⟨hvalidate, ⟨message, hmessages, hshown⟩,
    posts_of_broken_token hvalidate rfl (by decide)⟩

end FreightPromotion
