import FreightPromotion.Http.Status
import FreightPromotion.Http.Url

/-!
# The network

What becomes of a message is decided outside the program.  A network answers a
message that takes a route to its address; the program sees how far the answer
came.
-/

namespace FreightPromotion.Http

open FreightPromotion.Text (Bytes)

/-- How the body of a reply ended. -/
inductive Ending where
  /-- All of it arrived. -/
  | complete
  /-- The connection was closed before its end. -/
  | cut
  /-- The rest did not come, and the connection stayed open. -/
  | stalled
deriving DecidableEq, Repr

/-- A reply whose head arrived. -/
structure Reply where
  status : Status
  body : Bytes := []
  ending : Ending := .complete
deriving DecidableEq, Repr

/-- What comes back for a message. -/
inductive Answer where
  /-- The connection was not accepted, so the message was not sent. -/
  | refused
  /-- The connection was closed without a reply. -/
  | closed
  /-- No reply came, and the connection stayed open. -/
  | silent
  /-- A reply came. -/
  | reply (reply : Reply)
deriving DecidableEq, Repr

/-- How a message gets to where it goes: whether the certificate that is shown
there goes unchecked. -/
structure Route where
  url : Url
  unchecked : Bool
deriving DecidableEq, Repr

/-- The answer to a message, by the route that it takes. -/
abbrev Network := Route → Answer

/-- How a server protects its connections. -/
inductive Protection where
  /-- Not at all. -/
  | plain
  /-- With a certificate that passes a check. -/
  | trusted
  /-- With a certificate that does not pass a check. -/
  | untrusted
deriving DecidableEq, Repr

/-- A server at a port of the local host, with the answers that it gives in
turn.  The last one is given again when they are used up, and a server without
answers gives an empty reply. -/
structure Server where
  port : Nat
  answers : List Answer
  protection : Protection

namespace Server

/-- The address that the server listens on. -/
def host : String := "127.0.0.1"

/-- Whether the two ends agree on how the connection is protected.  A certificate
that does not pass a check is only good enough where none is made. -/
def agreesOn (server : Server) (route : Route) : Bool :=
  match server.protection with
  | .plain => !route.url.secure
  | .trusted => route.url.secure
  | .untrusted => route.url.secure && route.unchecked

/-- The answer to the message that comes after `received` others. -/
def answerAfter (server : Server) (received : Nat) : Answer :=
  match server.answers[received]? with
  | some answer => answer
  | none => server.answers.getLast?.getD (.reply { status := ⟨200⟩ })

/-- The network that consists of the server, after it has received so many
messages. -/
def network (server : Server) (received : Nat) : Network := fun route =>
  if route.url.host = Server.host ∧ route.url.port = server.port ∧ server.agreesOn route then
    server.answerAfter received
  else .refused

end Server

end FreightPromotion.Http
