import FreightPromotion.Client
import FreightPromotion.Store

/-!
# Commands

A command promotes a piece of freight, or shows or changes the settings.  A
promotion is the only command that reaches the server, and the changes of the
settings are the only ones that write to the store.

Commands run one after the other in a world: the files, and a server that gives
its answers in turn.
-/

namespace FreightPromotion

open FreightPromotion.Files (Tree)
open FreightPromotion.Text (Bytes)

/-! ## What is asked for -/

/-- The options of a promotion as they were given; one that is present may still
be empty. -/
structure PromoteArguments where
  project : Option String := none
  freight : Option String := none
  freightAlias : Option String := none
  stage : Option String := none
  subscribersOf : Option String := none
  output : Option String := none
deriving DecidableEq, Repr

/-- What the user wants done. -/
inductive Command where
  | promote (arguments : PromoteArguments)
  | viewSettings (asJson : Bool)
  | setProject (project : String)
  | setServer (address : String)
deriving DecidableEq, Repr

/-- What holds for a command whatever it does: where the settings are kept, the
server that is meant in place of the one in the settings, whether certificates
go unchecked, and the time that there is. -/
structure Circumstances where
  store : Store
  server : Option String := none
  insecureSkipTlsVerify : Bool := false
  deadline : Deadline := .none
deriving DecidableEq, Repr

/-- The options of a promotion.  The project of the settings is meant when none
was given. -/
def PromoteArguments.options (arguments : PromoteArguments) (settings : Settings) : Options where
  project := (arguments.project <|> settings.defaultProject?).getD ""
  freightName := arguments.freight.getD ""
  freightAlias := arguments.freightAlias.getD ""
  targetStage := arguments.stage.getD ""
  subscribersOfStage := arguments.subscribersOf.getD ""
  outputFormat := arguments.output

/-! ## Settings as commands see them -/

/-- The settings for one command.  The flag can only be set, not cleared. -/
def Settings.under (settings : Settings) (circumstances : Circumstances) : Settings :=
  { settings with
    apiAddress := circumstances.server.getD settings.apiAddress
    insecureSkipTlsVerify :=
      settings.insecureSkipTlsVerify || circumstances.insecureSkipTlsVerify }

/-- The settings with a fixed text in place of the token. -/
def Settings.redacted (settings : Settings) : Settings :=
  { settings with bearerToken := settings.bearerToken.map fun _ => "(redacted)" }

/-- The settings for a reader, one a line.  Of the token it says only whether
there is one. -/
def Settings.overview (settings : Settings) (path : String) : String :=
  "path: " ++ path ++ "\n" ++
    "server: " ++ (given? settings.apiAddress).getD "(none)" ++ "\n" ++
    "project: " ++ settings.defaultProject?.getD "(none)" ++ "\n" ++
    "insecure_skip_tls_verify: " ++
      (if settings.insecureSkipTlsVerify then "true" else "false") ++ "\n" ++
    "token: " ++ (if settings.bearerToken.isSome then "set" else "(none)") ++ "\n"

/-- What is printed for settings. -/
def Settings.shown (settings : Settings) (path : String) (asJson : Bool) : String :=
  if asJson then settings.redacted.document.pretty ++ "\n" else settings.overview path

/-! ## Running a command -/

/-- What a command leaves: the files, what was printed, and how it ended. -/
structure Completion where
  tree : Tree
  sink : Sink
  result : Result Unit

/-- Prints a text after a command has done its work. -/
def Sink.print (sink : Sink) (text : String) : Sink :=
  (sink.write (Text.encode text)).1

/-- Changes the settings and then says so. -/
def Circumstances.change (circumstances : Circumstances) (change : Settings → Settings)
    (confirmation : String) (tree : Tree) (sink : Sink) : Traced Completion := do
  let (tree, result) ← circumstances.store.update change tree
  match result with
  | .error failure => return ⟨tree, sink, .error failure⟩
  | .ok _ => return ⟨tree, sink.print (confirmation ++ "\n"), .ok ()⟩

/-- Runs a command. -/
def Command.run (command : Command) (circumstances : Circumstances) (network : Http.Network)
    (tree : Tree) (sink : Sink) : Traced Completion :=
  match command with
  | .viewSettings asJson =>
    match circumstances.store.load tree with
    | .error failure => return ⟨tree, sink, .error failure⟩
    | .ok settings =>
      return ⟨tree, sink.print (settings.shown circumstances.store.path asJson), .ok ()⟩
  | .setProject project =>
    if project.isEmpty then
      return ⟨tree, sink, .error (.ofMessage "project must not be empty")⟩
    else
      circumstances.change (fun settings => { settings with project := some project })
        ("Default project set to " ++ Text.quote project) tree sink
  | .setServer address =>
    if address.isEmpty then
      return ⟨tree, sink, .error (.ofMessage "server address must not be empty")⟩
    else
      circumstances.change
        (fun settings =>
          { settings with
            apiAddress := trimSlashes address
            insecureSkipTlsVerify := circumstances.insecureSkipTlsVerify })
        ("API server set to " ++ trimSlashes address) tree sink
  | .promote arguments =>
    match circumstances.store.load tree with
    | .error failure => return ⟨tree, sink, .error failure⟩
    | .ok settings => do
      let connect : Traced (Result Service) := return do
        let client ← Client.ofSettings (settings.under circumstances)
        return client.service network
      let (sink, result) ←
        FreightPromotion.promote circumstances.deadline (arguments.options settings) connect sink
      return ⟨tree, sink, result⟩

/-! ## Running commands in turn -/

/-- The files, and how many messages the server has received. -/
structure World where
  tree : Tree
  received : Nat := 0

/-- What can be seen of a command that ran. -/
structure Report where
  steps : List Step
  output : Bytes
  result : Result Unit

/-- Runs a command in a world.  The messages that it sends count as received. -/
def World.run (world : World) (server : Http.Server) (circumstances : Circumstances)
    (command : Command) : World × Report :=
  let traced := command.run circumstances (server.network world.received) world.tree .unlimited
  let completion := traced.value
  (⟨completion.tree, world.received + (Traced.posts traced.steps).length⟩,
    ⟨traced.steps, completion.sink.written, completion.result⟩)

/-- Runs commands one after the other. -/
def World.runAll (world : World) (server : Http.Server) :
    List (Circumstances × Command) → World × List Report
  | [] => (world, [])
  | (circumstances, command) :: commands =>
    let (world, report) := world.run server circumstances command
    let (world, reports) := world.runAll server commands
    (world, report :: reports)

end FreightPromotion
