import FreightPromotion.Http.Network
import FreightPromotion.Http.Post
import FreightPromotion.Text.Hexadecimal

/-!
# Messages on the wire

A message is a head of lines, an empty line and a body.  The head of a reply says
where its body ends: after a number of bytes, after the last of several chunks,
or with the connection.

What has arrived of a reply is a function of the bytes received so far.  The
answer then depends on why no more of them come.
-/

namespace FreightPromotion.Http

open FreightPromotion.Text (Bytes)

/-! ## Sending -/

/-- The host and the port, unless it is the usual one. -/
def Url.authority (url : Url) : String :=
  if url.port = (if url.secure then 443 else 80) then url.host
  else url.host ++ ":" ++ toString url.port

/-- The lines of the head of a message. -/
def Post.head (message : Post) (url : Url) (bodyLength : Nat) : List String :=
  [Post.method ++ " " ++ message.target ++ " HTTP/1.1",
    "host: " ++ url.authority,
    "user-agent: " ++ Post.userAgent,
    "accept: " ++ Post.mediaType,
    "content-type: " ++ Post.mediaType,
    "content-length: " ++ toString bodyLength,
    "connection: close"] ++
    message.authorization.map ("authorization: " ++ ·)

/-- The bytes of a message. -/
def Post.wire (message : Post) (url : Url) : Bytes :=
  let body := Text.encode message.body
  let head := String.join ((message.head url body.length).map (· ++ "\r\n"))
  Text.encode (head ++ "\r\n") ++ body

/-! ## Receiving -/

/-- A line without its end, and what follows it. -/
def splitLine? (bytes : Bytes) : Option (String × Bytes) :=
  match bytes.dropWhile (· ≠ 10) with
  | [] => none
  | _ :: rest =>
    some (Text.decodeLossy ((bytes.takeWhile (· ≠ 10)).filter (· ≠ 13)), rest)

/-- The lines up to an empty one, at most `bound` of them, and what follows. -/
def splitHead? : Nat → Bytes → Option (List String × Bytes)
  | 0, _ => none
  | bound + 1, bytes => do
    let (line, rest) ← splitLine? bytes
    if line.isEmpty then some ([], rest)
    else
      let (lines, rest) ← splitHead? bound rest
      some (line :: lines, rest)

/-- The name of a header in lower case, and its value. -/
def header? (line : String) : Option (String × String) :=
  match line.splitOn ":" with
  | name :: rest@(_ :: _) =>
    some (String.ofList (name.toList.map Char.toLower), (":".intercalate rest).trimAscii.toString)
  | _ => none

/-- The code in the first line of a reply. -/
def statusCode? (line : String) : Option Nat :=
  (line.splitOn " ")[1]?.bind String.toNat?

/-- The size at the start of a line. -/
def chunkSize (line : String) : Nat :=
  ((line.toList.map Text.hexValue?).takeWhile Option.isSome).foldl
    (fun size digit => size * 16 + digit.getD 0) 0

/-- The content of chunks, at most `bound` of them, and whether the last one is
there. -/
def joinChunks : Nat → Bytes → Bytes × Bool
  | 0, _ => ([], false)
  | bound + 1, bytes =>
    match splitLine? bytes with
    | none => ([], false)
    | some (line, rest) =>
      let size := chunkSize line
      if size = 0 then ([], true)
      else
        let (more, isLast) := joinChunks bound (rest.drop (size + 2))
        (rest.take size ++ more, isLast)

/-- What has arrived of a reply after its head: the body so far, whether that is
all of it, and whether the end of the connection is its end. -/
structure Arrival where
  status : Status
  body : Bytes
  isComplete : Bool
  endsWithConnection : Bool := false
deriving DecidableEq, Repr

namespace Arrival

/-- What the bytes received so far come to, if the head of a reply is among
them. -/
def ofBytes? (received : Bytes) : Option Arrival := do
  let (lines, rest) ← splitHead? (received.length + 1) received
  let code ← lines.head?.bind statusCode?
  let headers := lines.filterMap header?
  let status : Status := ⟨code⟩
  if status.isBodiless then some { status, body := [], isComplete := true }
  else if (headers.lookup "transfer-encoding").isSome then
    let (body, isComplete) := joinChunks (rest.length + 1) rest
    some { status, body, isComplete }
  else
    match (headers.lookup "content-length").bind String.toNat? with
    | some length => some { status, body := rest.take length, isComplete := length ≤ rest.length }
    | none => some { status, body := rest, isComplete := false, endsWithConnection := true }

/-- The reply when no more bytes come. -/
def reply (arrival : Arrival) (ending : Ending) : Reply where
  status := arrival.status
  body := arrival.body
  ending := if arrival.isComplete then .complete else ending

/-- The answer when the connection has been closed. -/
def answerAtClose : Option Arrival → Answer
  | none => .closed
  | some arrival =>
    .reply (arrival.reply (if arrival.endsWithConnection then .complete else .cut))

/-- The answer when nothing more came in time. -/
def answerAtTimeout : Option Arrival → Answer
  | none => .silent
  | some arrival => .reply (arrival.reply .stalled)

end Arrival

end FreightPromotion.Http
