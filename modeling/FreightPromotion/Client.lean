import FreightPromotion.Http.Network
import FreightPromotion.Outcome
import FreightPromotion.Settings

/-!
# The client

The service is reached over the network.  Each operation posts one message and
makes of the answer what the service has to return.

A deadline that passes while the answer is awaited is reported as such.  When
the server refuses, it says why in the body of its reply, and it may list there
what it has created all the same.
-/

namespace FreightPromotion

open FreightPromotion.Json (Value Reader)
open FreightPromotion.Text (Bytes)

/-! ## Operations -/

/-- The operations of the service. -/
inductive Operation where
  | promoteStage
  | promoteSubscribers
deriving DecidableEq, Repr

/-- The name of an operation in its address. -/
def Operation.label : Operation → String
  | .promoteStage => "PromoteStage"
  | .promoteSubscribers => "PromoteSubscribers"

/-- The path of the service below the address of the server. -/
def servicePath : String := "/akuity.io.kargo.service.v1alpha1.KargoService"

/-- The document that asks for a promotion.  It names the freight in one of two
members. -/
def requestDocument (project : String) (freight : Freight) (stage : String) : Value :=
  .object <|
    [("project", .text project)] ++
      optionalMember "freight" (freight.name?.map .text) ++
      optionalMember "freightAlias" (freight.alias?.map .text) ++
      [("stage", .text stage)]

/-! ## Replies -/

/-- Reads the reply to the promotion into a stage. -/
def readStageReply : Reader (Option Promotion) :=
  Json.readRecord "PromoteStageResponse"
    [.of "promotion" (Json.readOptional Promotion.read) fun _ value => value] none

/-- Reads the reply to the promotion to subscribers. -/
def readSubscribersReply : Reader (List Promotion) :=
  Json.readRecord "PromoteSubscribersResponse"
    [.of "promotions" (Json.readList Promotion.read) fun _ value => value] []

/-- What the server says when it refuses. -/
structure Refusal where
  code : Option String := none
  message : Option String := none
  promotions : List Promotion := []

namespace Refusal

/-- Reads a refusal. -/
def read : Reader Refusal :=
  Json.readRecord "RpcErrorBody"
    [.of "code" (Json.readOptional Json.readText) fun refusal value =>
        { refusal with code := value },
      .of "message" (Json.readOptional Json.readText) fun refusal value =>
        { refusal with message := value },
      .of "promotions" (Json.readList Promotion.read) fun refusal value =>
        { refusal with promotions := value }] {}

/-- The refusal in words.  The status stands in for a message that is missing or
empty. -/
def description (refusal : Refusal) (status : Http.Status) : String :=
  match refusal.code.bind given?, refusal.message.bind given? with
  | some code, some message => code ++ ": " ++ message
  | none, some message => message
  | some code, none => code ++ " (status " ++ status.text ++ ")"
  | none, none => "request failed with status " ++ status.text

end Refusal

/-! ## What arrives -/

/-- Why nothing more arrives. -/
inductive Interruption where
  | lost
  | timedOut
deriving DecidableEq

/-- The failure of an exchange that was interrupted while something was done. -/
def Interruption.failure (label : String) : Interruption → Failure
  | .lost => { labels := [label], cause := .transport }
  | .timedOut => { labels := ["context deadline exceeded"], cause := .transport }

/-- What waiting comes to: it ends with the deadline, if there is one. -/
def Deadline.waiting (deadline : Deadline) : Interruption :=
  if deadline.remaining.isSome then .timedOut else .lost

/-- The body of a reply, unless it is interrupted. -/
def Http.Reply.content (reply : Http.Reply) (deadline : Deadline) : Except Interruption Bytes :=
  if reply.status.isBodiless then .ok []
  else
    match reply.ending with
    | .complete => .ok reply.body
    | .cut => .error .lost
    | .stalled => .error deadline.waiting

/-- The document in a reply that tells of success. -/
def Http.Reply.decode {α : Type} (reply : Http.Reply) (deadline : Deadline) (label : String)
    (reader : Reader α) : Result α :=
  match reply.content deadline with
  | .error interruption => .error (interruption.failure label)
  | .ok body =>
    match Json.read reader body with
    | .ok value => .ok value
    | .error fault =>
      .error { labels := [label, "error decoding response body"], cause := .malformed fault }

/-- The refusal in a reply.  One that does not arrive or cannot be read says
nothing. -/
def Http.Reply.refusal (reply : Http.Reply) (deadline : Deadline) : Refusal :=
  match reply.content deadline with
  | .error _ => {}
  | .ok body => (Json.read Refusal.read body).toOption.getD {}

/-- The failure that a reply tells of, and what was created all the same. -/
def Http.Reply.failure (reply : Http.Reply) (deadline : Deadline) : Failure × List Promotion :=
  if reply.status = .unauthorized then
    (.ofMessage "unauthorized (bearer token missing, invalid or expired)", [])
  else if reply.status = .forbidden then
    (.ofMessage "forbidden (insufficient permissions in this project)", [])
  else
    let refusal := reply.refusal deadline
    (.ofMessage (refusal.description reply.status), refusal.promotions)

/-- What promoting into a stage makes of a reply. -/
def Http.Reply.stageResult (reply : Http.Reply) (deadline : Deadline) : Result Promotion :=
  if reply.status.isSuccess then
    match reply.decode deadline "parse promote stage response" readStageReply with
    | .error failure => .error failure
    | .ok none => .error (.ofMessage "promote stage response did not include a promotion")
    | .ok (some promotion) => .ok promotion
  else .error (reply.failure deadline).1

/-- What promoting to subscribers makes of a reply. -/
def Http.Reply.subscribersResult (reply : Http.Reply) (deadline : Deadline) :
    Partial (List Promotion) :=
  if reply.status.isSuccess then
    match reply.decode deadline "parse promote subscribers response" readSubscribersReply with
    | .error failure => { failure := some failure }
    | .ok promotions => { value := some promotions }
  else
    let (failure, promotions) := reply.failure deadline
    { value := if promotions.isEmpty then none else some promotions, failure := some failure }

/-! ## The client -/

/-- How the service is reached: the address without slashes at its end, a token
that is not empty, if there is one, and whether certificates go unchecked. -/
structure Client where
  baseAddress : String
  token : Option String
  insecureSkipTlsVerify : Bool
deriving DecidableEq, Repr

/-- The text without the slashes at its end. -/
def trimSlashes (text : String) : String :=
  String.ofList (text.toList.reverse.dropWhile (· = '/')).reverse

namespace Client

/-- The client for settings, which have to name a server. -/
def ofSettings (settings : Settings) : Result Client :=
  if settings.apiAddress.isEmpty then
    .error (.ofMessage
      "no API server configured (pass --server or run `kargo config set-server`)")
  else
    .ok
      { baseAddress := trimSlashes settings.apiAddress
        token := settings.bearerToken.bind given?
        insecureSkipTlsVerify := settings.insecureSkipTlsVerify }

/-- The address of an operation. -/
def address (client : Client) (operation : Operation) : String :=
  client.baseAddress ++ servicePath ++ "/" ++ operation.label

/-- The header that shows the token. -/
def authorization (client : Client) : Option String :=
  client.token.map fun token => "Bearer " ++ token

/-- Whether a text can be sent in a header: it holds no control but the tab. -/
def isHeaderText (text : String) : Bool :=
  text.toList.all fun character =>
    character = '\t' || (32 ≤ character.toNat && character.toNat ≠ 127)

/-- Why a message cannot be sent, if its address cannot be used.  The header comes
to light before a foreign scheme, unless the address has no host. -/
def addressCause (client : Client) (fault : Http.AddressFault) : Failure.Cause :=
  match fault with
  | .foreignScheme _ true => if client.authorization.all isHeaderText then .address fault else .header
  | _ => .address fault

/-- The message that asks for an operation, with the address that it goes to,
unless the address or the header for the token is not valid.  A user whom the
address names is shown in a header of its own. -/
def message (client : Client) (operation : Operation) (body : String) :
    Except Failure.Cause (Http.Url × Http.Post) :=
  match Http.Url.read (client.address operation) with
  | .error fault => .error (client.addressCause fault)
  | .ok url =>
    if client.authorization.all isHeaderText then
      .ok (url,
        { address := client.address operation
          target := url.target
          userAuthorization := url.user.map Http.User.authorization
          tokenAuthorization := client.authorization
          body := body })
    else .error .header

/-- The route that a message takes to an address. -/
def route (client : Client) (url : Http.Url) : Http.Route :=
  ⟨url, client.insecureSkipTlsVerify⟩

/-- The event that precedes a message. -/
def sendingEvent (client : Client) (operation : Operation) : Event where
  level := .debug
  source := "kargo::remote::http_client"
  message := "sending rpc"
  fields :=
    [("method", .quoted operation.label), ("url", .plain (client.address operation))]

/-- Sends one message, unless the deadline has passed, and waits for the head of
the reply. -/
def post (client : Client) (network : Http.Network) (deadline : Deadline)
    (operation : Operation) (body : String) : Traced (Result Http.Reply) := do
  if deadline.isExpired then return .error { cause := .deadlineExceeded }
  Traced.log (client.sendingEvent operation)
  let label := operation.label ++ " request"
  match client.message operation body with
  | .error cause => return .error { labels := [label], cause }
  | .ok (url, message) =>
    match network (client.route url) with
    | .refused => return .error (Interruption.lost.failure label)
    | .closed =>
      Traced.step (.post message)
      return .error (Interruption.lost.failure label)
    | .silent =>
      Traced.step (.post message)
      return .error (deadline.waiting.failure label)
    | .reply reply =>
      Traced.step (.post message)
      return .ok reply

/-- The service as it is reached over a network. -/
def service (client : Client) (network : Http.Network) : Service where
  promoteToStage deadline project freight stage := do
    let body := (requestDocument project freight stage).compact
    match ← client.post network deadline .promoteStage body with
    | .error failure => return .error failure
    | .ok reply => return reply.stageResult deadline
  promoteToSubscribers deadline project freight stage := do
    let body := (requestDocument project freight stage).compact
    match ← client.post network deadline .promoteSubscribers body with
    | .error failure => return { failure := some failure }
    | .ok reply => return reply.subscribersResult deadline

end Client

end FreightPromotion
