import FreightPromotion.CommandLine.Help
import FreightPromotion.CommandLine.Reading
import FreightPromotion.Environment
import FreightPromotion.LogFilter

/-!
# The program

One run of the program reads its command line, runs the command and ends with a
status: 0 if the command succeeded, 1 if it failed, and 2 if the command line
does not lead to a command.  The output of the command goes to one stream, and
the events that are shown and the failure go to the other.
-/

namespace FreightPromotion

open FreightPromotion.CommandLine (Complaint Line)
open FreightPromotion.Files (Tree)
open FreightPromotion.Text (Bytes)

namespace Program

/-- The steps of a run, what it leaves in the two streams, and the status that it
ends with. -/
structure Exit where
  steps : List Step := []
  status : Nat
  output : Bytes := []
  messages : String := ""

/-- What a complaint is answered with: the page of a verb, or the complaint and
where to find more. -/
def answerTo (configPath : Option String) (complaint : Complaint) : String :=
  match complaint with
  | .helpWanted verb => verb.helpPage configPath
  | .bareVerb verb => verb.helpPage configPath
  | complaint =>
    "error: " ++ complaint.message?.getD "" ++ "\n\nFor more information, try '--help'.\n"

/-- The end of a run that is over before any command was run. -/
def refuse (configPath : Option String) (complaint : Complaint) : Exit :=
  let answer := answerTo configPath complaint
  match complaint with
  | .helpWanted _ => { status := 0, output := Text.encode answer }
  | _ => { status := 2, messages := answer }

/-- The time that a command line allows, in seconds, if it does not say. -/
def defaultTimeout : Nat := 30

/-- The deadline that a command line asks for.  No seconds at all stand for no
limit. -/
def deadline (line : Line) : Deadline :=
  let seconds :=
    ((line.value? .requestTimeout).bind fun text => (CommandLine.readCount text).toOption).getD
      defaultTimeout
  if seconds = 0 then .none else .afterSeconds seconds

/-- Where the settings are kept, if that is known: the command line is asked
first, and then the environment. -/
def storePath? (line : Line) (environment : Environment) : Option String :=
  line.value? .config <|> environment.configPath <|> environment.defaultPath?

/-- What holds for the command of a command line, if it is known where the
settings are kept. -/
def circumstances? (line : Line) (environment : Environment) (process : Nat) :
    Option Circumstances :=
  (storePath? line environment).map fun path =>
    { store := { path, process }
      server := line.value? .server
      insecureSkipTlsVerify := (line.value? .insecureSkipTlsVerify).isSome
      deadline := deadline line }

/-- The event that precedes a command. -/
def storeEvent (store : Store) : Event where
  level := .debug
  source := "kargo::cli_runtime"
  message := "resolved cli config path"
  fields := [("config", .plain store.path)]

/-- The lines for the events that are shown. -/
def logLines (filter : LogFilter) (events : List Event) : String :=
  String.join ((events.filter filter.shows).map fun event => event.line ++ "\n")

/-- The end of a run that has run a command. -/
def conclude (filter : LogFilter) (store : Store) (traced : Traced Completion) : Exit :=
  let steps := .event (storeEvent store) :: traced.steps
  let output := traced.value.sink.written
  let log := logLines filter (Traced.events steps)
  match traced.value.result with
  | .ok () => { steps, status := 0, output, messages := log }
  | .error failure => { steps, status := 1, output, messages := log ++ failure.message ++ "\n" }

/-- Runs the program. -/
def run (arguments : List String) (environment : Environment) (process : Nat)
    (network : Http.Network) (tree : Tree) : Tree × Exit :=
  match CommandLine.read { configPath := environment.configPath } arguments with
  | .error complaint => (tree, refuse environment.configPath complaint)
  | .ok line =>
    match circumstances? line environment process with
    | none => (tree, { status := 1, messages := "locate user config directory\n" })
    | some circumstances =>
      let traced := line.command.run circumstances network tree .unlimited
      (traced.value.tree,
        conclude (.ofVariable environment.logFilter) circumstances.store traced)

end Program

end FreightPromotion
