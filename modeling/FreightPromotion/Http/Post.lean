/-!
# Messages to the server

The program sends messages of one kind: documents posted to a method of the
service.  A message shows the user who is named in its address, and the token, if
there are any.
-/

namespace FreightPromotion.Http

/-- A posted message: where it goes, who sends it, and its body.  `target` is
what the request line names, which follows from the address, as does the header
that shows a user. -/
structure Post where
  address : String
  target : String
  userAuthorization : Option String
  tokenAuthorization : Option String
  body : String
deriving DecidableEq, Repr

namespace Post

/-- The headers that say who sends a message, in their order. -/
def authorization (post : Post) : List String :=
  post.userAuthorization.toList ++ post.tokenAuthorization.toList

/-- The method of every message. -/
def method : String := "POST"

/-- The form of the body, and of the reply that is asked for. -/
def mediaType : String := "application/json"

/-- How the program calls itself. -/
def userAgent : String := "kargo-cli"

end Post

end FreightPromotion.Http
