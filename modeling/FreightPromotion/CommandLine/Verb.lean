/-!
# Verbs and parameters

The words at the start of the command line lead to a verb.  Each verb has
parameters of its own: options, which are named, and at most one operand, which
stands by itself.  The shared options and the one for help belong to every verb.

A verb may require that one of several options is given.  These alternatives
exclude each other, so that exactly one of them is given in the end.
-/

namespace FreightPromotion.CommandLine

/-! ## Parameters -/

/-- What can be given on the command line. -/
inductive Parameter where
  | config
  | server
  | insecureSkipTlsVerify
  | requestTimeout
  | help
  | project
  | freight
  | freightAlias
  | stage
  | subscribersOf
  | output
  | json
  /-- The operand that names a project. -/
  | projectOperand
  /-- The operand that names a server. -/
  | serverOperand
deriving DecidableEq, Repr

namespace Parameter

/-- Whether the parameter stands by itself. -/
def isOperand : Parameter → Bool
  | projectOperand => true
  | serverOperand => true
  | _ => false

/-- The name of an option, which follows two dashes. -/
def name : Parameter → String
  | config => "config"
  | server => "server"
  | insecureSkipTlsVerify => "insecure-skip-tls-verify"
  | requestTimeout => "request-timeout"
  | help => "help"
  | project => "project"
  | freight => "freight"
  | freightAlias => "freight-alias"
  | stage => "stage"
  | subscribersOf => "subscribers-of"
  | output => "output"
  | json => "json"
  | projectOperand => "project"
  | serverOperand => "url"

/-- The letter that stands for an option after one dash. -/
def letter? : Parameter → Option Char
  | help => some 'h'
  | project => some 'p'
  | output => some 'o'
  | _ => none

/-- The word for the value in descriptions.  A parameter without one takes no
value. -/
def placeholder? : Parameter → Option String
  | config => some "PATH"
  | server => some "URL"
  | insecureSkipTlsVerify => none
  | requestTimeout => some "SECONDS"
  | help => none
  | project => some "PROJECT"
  | freight => some "FREIGHT"
  | freightAlias => some "FREIGHT_ALIAS"
  | stage => some "STAGE"
  | subscribersOf => some "SUBSCRIBERS_OF"
  | output => some "FORMAT"
  | json => none
  | projectOperand => some "PROJECT"
  | serverOperand => some "URL"

/-- The value as it stands in descriptions. -/
def valueText (parameter : Parameter) : String :=
  match parameter.placeholder? with
  | some placeholder => "<" ++ placeholder ++ ">"
  | none => ""

/-- A parameter as it stands in descriptions. -/
def text (parameter : Parameter) : String :=
  if parameter.isOperand then parameter.valueText
  else
    match parameter.placeholder? with
    | some _ => "--" ++ parameter.name ++ " " ++ parameter.valueText
    | none => "--" ++ parameter.name

/-- What an option is for. -/
def about : Parameter → String
  | config => "Path to the CLI config file"
  | server => "API server address (overrides the configured one)"
  | insecureSkipTlsVerify => "Skip TLS certificate verification"
  | requestTimeout => "Seconds to wait for the API server (0 waits indefinitely)"
  | help => "Print help"
  | project => "The project the freight belongs to (defaults to the configured project)"
  | freight => "The name of the piece of freight to promote"
  | freightAlias => "The alias of the piece of freight to promote"
  | stage => "The stage to promote the freight to"
  | subscribersOf => "The stage whose subscribers the freight should be promoted to"
  | output => "Output format: json|yaml|name (defaults to a summary line)"
  | json => "Emit JSON"
  | projectOperand => ""
  | serverOperand => ""

/-- The options that every verb shares. -/
def shared : List Parameter := [config, server, insecureSkipTlsVerify, requestTimeout]

end Parameter

/-! ## Verbs -/

/-- What the words at the start of the command line lead to. -/
inductive Verb where
  /-- No word was read yet. -/
  | start
  | promote
  | config
  | viewSettings
  | setProject
  | setServer
  /-- Asks for help on the words that follow. -/
  | help
  /-- Asks for help on the words that follow, within the verb for settings. -/
  | configHelp
deriving DecidableEq, Repr

namespace Verb

/-- The words that lead from a verb to others. -/
def followers : Verb → List (String × Verb)
  | start => [("promote", promote), ("config", config), ("help", help)]
  | config =>
    [("view", viewSettings), ("set-project", setProject), ("set-server", setServer),
      ("help", configHelp)]
  | _ => []

/-- The verb that a word leads to. -/
def follower? (verb : Verb) (word : String) : Option Verb :=
  verb.followers.lookup word

/-- Whether the verb asks for help. -/
def isHelp : Verb → Bool
  | help => true
  | configHelp => true
  | _ => false

/-- The words that lead to a verb, after the name of the program. -/
def title : Verb → String
  | start => "kargo"
  | promote => "kargo promote"
  | config => "kargo config"
  | viewSettings => "kargo config view"
  | setProject => "kargo config set-project"
  | setServer => "kargo config set-server"
  | help => "kargo help"
  | configHelp => "kargo config help"

/-- What a verb is for. -/
def about : Verb → String
  | start => "Kargo command line client"
  | promote => "Promote a piece of freight"
  | config => "Show or change the CLI configuration"
  | viewSettings => "Show the current configuration"
  | setProject => "Set the default project"
  | setServer => "Set the API server address (records --insecure-skip-tls-verify too)"
  | help => "Print this message or the help of the given subcommand(s)"
  | configHelp => "Print this message or the help of the given subcommand(s)"

/-- The options of a verb, apart from the shared ones and the one for help. -/
def options : Verb → List Parameter
  | promote => [.project, .freight, .freightAlias, .stage, .subscribersOf, .output]
  | viewSettings => [.json]
  | _ => []

/-- The operand of a verb. -/
def operand? : Verb → Option Parameter
  | setProject => some .projectOperand
  | setServer => some .serverOperand
  | _ => none

/-- What has to be given for a verb.  Of each list of alternatives it is exactly
one. -/
def requirements : Verb → List (List Parameter)
  | promote => [[.freight, .freightAlias], [.stage, .subscribersOf]]
  | setProject => [[.projectOperand]]
  | setServer => [[.serverOperand]]
  | _ => []

end Verb

/-- A requirement as it stands in descriptions. -/
def requirementText : List Parameter → String
  | [parameter] => parameter.text
  | alternatives => "<" ++ "|".intercalate (alternatives.map Parameter.text) ++ ">"

end FreightPromotion.CommandLine
