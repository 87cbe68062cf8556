import FreightPromotion.Http.Wire
import FreightPromotion.Program
import Std.Async.DNS
import Std.Async.TCP
import Std.Async.Timer

/-!
# The command

What a run does is a function of the files and of what the network answers.  The
files that the run can look at are read first, and the network is asked for what
the run sends; then the run is computed, and what it has changed is written back.

The message of a run does not depend on the answer to it.  It is found by a run
in a network that accepts every message and answers none.
-/

namespace FreightPromotion.Main

open FreightPromotion.Files (Tree Location)
open FreightPromotion.Text (Bytes)
open Std.Async

/-! ## The network -/

/-- Receives a reply, until it is complete or no more of it comes. -/
partial def receive (client : TCP.Socket.Client) (clock : Async Unit) (received : Bytes) :
    Async Http.Answer := do
  let next : Async (Option (Option ByteArray)) := do return some (← client.recv? 65536)
  let timeout : Async (Option (Option ByteArray)) := do
    clock
    return none
  match ← Async.race next timeout with
  | none => return Http.Arrival.answerAtTimeout (Http.Arrival.ofBytes? received)
  | some none => return Http.Arrival.answerAtClose (Http.Arrival.ofBytes? received)
  | some (some more) =>
    let received := received ++ more.toList
    match Http.Arrival.ofBytes? received with
    | some arrival =>
      if arrival.isComplete then return .reply (arrival.reply .complete)
      else receive client clock received
    | none => receive client clock received

/-- Waits until a number of milliseconds after the start, or for ever. -/
partial def waitUntil (start : Nat) (limit : Option Nat) : Async Unit := do
  let pause := 60000
  match limit with
  | none =>
    sleep (.ofNat pause)
    waitUntil start limit
  | some limit =>
    let passed := (← IO.monoMsNow) - start
    if passed < limit then
      sleep (.ofNat (min pause (limit - passed)))
      waitUntil start (some limit)

/-- Opens a connection to a server, if it accepts one. -/
def connect? (url : Http.Url) : Async (Option TCP.Socket.Client) := do
  try
    let addresses ← DNS.getAddrInfo url.host (toString url.port)
    let some address := addresses[0]? | return none
    let address : Std.Net.SocketAddress :=
      match address with
      | .v4 addr => .v4 { addr, port := url.port.toUInt16 }
      | .v6 addr => .v6 { addr, port := url.port.toUInt16 }
    let client ← TCP.Socket.Client.mk
    client.connect address
    return some client
  catch _ => return none

/-- Sends a message over a connection and waits for the answer. -/
def converse (client : TCP.Socket.Client) (content : Bytes) (clock : Async Unit) :
    Async Http.Answer := do
  try
    client.sendAll #[⟨content.toArray⟩]
    receive client clock []
  catch _ => return .closed

/-- Sends a message and waits for the answer.  Encrypted connections are
refused. -/
def exchange (url : Http.Url) (message : Http.Post) (deadline : Deadline) : IO Http.Answer := do
  if url.secure then return .refused
  let start ← IO.monoMsNow
  Async.block do
    match ← connect? url with
    | none => return .refused
    | some client => converse client (message.wire url) (waitUntil start deadline.remaining)

/-! ## The files -/

/-- What is at a path, if anything is.  What cannot be read as a file counts as a
directory. -/
def entryAt (path : String) : IO (Option Files.Entry) := do
  try
    let content ← IO.FS.readBinFile path
    return some (.file content.toList)
  catch _ =>
    try
      let _ ← IO.FS.realPath path
      return some .directory
    catch _ => return none

/-- The path of a location. -/
def pathOf (location : Location) : String := "/" ++ "/".intercalate location

/-- The locations that names lead through, from a location on. -/
def locationsOn (location : Location) : List String → List Location
  | [] => []
  | name :: names =>
    let next :=
      if name = "." then location else if name = ".." then location.dropLast
      else location ++ [name]
    next :: locationsOn next names

/-- The files and directories on the way to some paths. -/
def snapshot (paths : List String) : IO Tree := do
  let directory := Tree.names (← IO.currentDir).toString
  let onTheWay := paths.flatMap fun path =>
    locationsOn (if path.startsWith "/" then [] else directory) (Tree.names path)
  let mut tree : Tree := { workingDirectory := directory }
  for location in locationsOn [] directory ++ onTheWay do
    if (tree.entry? location).isNone then
      if let some entry ← entryAt (pathOf location) then
        tree := tree.put location entry
  return tree

/-- Makes the files and directories of `before` those of `after`.  A file is
written beside its place and then moved there. -/
def writeBack (before after : Tree) : IO Unit := do
  let changed := after.entries.filter fun (location, entry) => before.entry? location ≠ some entry
  for (location, entry) in changed.reverse do
    if entry = .directory then IO.FS.createDirAll (pathOf location)
  for (location, entry) in changed do
    if let .file content := entry then
      let path := pathOf location
      let temporary := path ++ ".new." ++ toString (← IO.monoNanosNow)
      IO.FS.writeBinFile temporary ⟨content.toArray⟩
      IO.FS.rename temporary path

/-! ## One run -/

/-- The variables of the environment. -/
def environment : IO Environment := do
  return { home := ← IO.getEnv "HOME"
           configHome := ← IO.getEnv "XDG_CONFIG_HOME"
           configPath := ← IO.getEnv "KARGO_CONFIG"
           logFilter := ← IO.getEnv "KARGO_LOG" }

/-- The circumstances of the command that the arguments lead to, if they lead to
one. -/
def circumstancesOf? (arguments : List String) (environment : Environment) (process : Nat) :
    Option Circumstances := do
  let line ← (CommandLine.read { configPath := environment.configPath } arguments).toOption
  Program.circumstances? line environment process

/-- Runs the program, and ends with its status. -/
def run (arguments : List String) : IO UInt32 := do
  let environment ← environment
  let process ← IO.monoNanosNow
  let circumstances := circumstancesOf? arguments environment process
  let tree ← snapshot (circumstances.toList.flatMap fun circumstances =>
    [circumstances.store.path, circumstances.store.temporaryPath])
  let runIn (network : Http.Network) : Tree × Program.Exit :=
    Program.run arguments environment process network tree
  let deadline := (circumstances.map Circumstances.deadline).getD .none
  let network : Http.Network ←
    match Traced.posts (runIn fun _ => .closed).2.steps with
    | [] => pure fun _ => .refused
    | message :: _ =>
      match Http.Url.read message.address with
      | .error _ => pure fun _ => .refused
      | .ok url =>
        let answer ← exchange url message deadline
        pure fun _ => answer
  let (after, exit) := runIn network
  writeBack tree after
  let output ← IO.getStdout
  output.write ⟨exit.output.toArray⟩
  output.flush
  (← IO.getStderr).putStr exit.messages
  return exit.status.toUInt32

end FreightPromotion.Main

/-- Runs the command with the arguments that it was given. -/
def main (arguments : List String) : IO UInt32 :=
  FreightPromotion.Main.run arguments
