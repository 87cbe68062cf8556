import FreightPromotion.CommandLine.Verb
import FreightPromotion.Text.Unstyled

/-!
# Help pages

Each verb has a page: what it is for, how it is used, and the verbs, operands and
options that it takes.  What an option is for stands beside its name, or below
it where the names are long.
-/

namespace FreightPromotion.CommandLine

/-- A text with blanks after it, up to a width. -/
def padded (text : String) (width : Nat) : String :=
  text ++ String.ofList (List.replicate (width - text.length) ' ')

/-- A line with its end. -/
def line (text : String) : String := text ++ "\n"

/-- The greatest of some widths. -/
def widest (texts : List String) : Nat :=
  (texts.map String.length).foldl max 0

/-- A section with its title. -/
def helpSection (title : String) (lines : List String) : String :=
  line (title ++ ":") ++ String.join (lines.map line)

namespace Parameter

/-- What an option is for, with the value that holds when it is not given. -/
def explanation (configPath : Option String) : Parameter → String
  | .config =>
    config.about ++ " [env: KARGO_CONFIG=" ++ Text.unstyled (configPath.getD "" ++ "]")
  | .requestTimeout => requestTimeout.about ++ " [default: 30]"
  | parameter => parameter.about

/-- The letter and the name of an option, behind a margin. -/
def heading (parameter : Parameter) : String :=
  match parameter.letter? with
  | some letter => "  -" ++ String.singleton letter ++ ", " ++ parameter.text
  | none => "      " ++ parameter.text

end Parameter

namespace Verb

/-- The options on the page of a verb, in their order there. -/
def listedOptions : Verb → List Parameter
  | .promote =>
    [.config, .project, .freight, .server, .freightAlias, .insecureSkipTlsVerify,
      .requestTimeout, .stage, .subscribersOf, .output, .help]
  | .viewSettings =>
    [.config, .json, .server, .insecureSkipTlsVerify, .requestTimeout, .help]
  | _ => [.config, .server, .insecureSkipTlsVerify, .requestTimeout, .help]

/-- What follows the name of a verb on the command line. -/
def synopsis (verb : Verb) : String :=
  if verb.isHelp then "[COMMAND]..."
  else
    " ".intercalate <|
      "[OPTIONS]" :: verb.requirements.map requirementText ++
        (if verb.followers.isEmpty then [] else ["<COMMAND>"])

/-- The lines for the verbs that may follow. -/
def followerLines (verb : Verb) : List String :=
  let width := widest (verb.followers.map Prod.fst)
  verb.followers.map fun (word, follower) => "  " ++ padded word width ++ "  " ++ follower.about

/-- The lines for the operands. -/
def operandLines (verb : Verb) : List String :=
  if verb.isHelp then ["  [COMMAND]...  Print help for the subcommand(s)"]
  else verb.operand?.toList.map fun operand => "  " ++ operand.text ++ "  "

/-- The lines for the options, with the explanations beside the names or below
them. -/
def optionLines (verb : Verb) (configPath : Option String) (below : Bool) : List String :=
  if verb.isHelp then []
  else
    let options := verb.listedOptions
    let width := widest (options.map Parameter.heading)
    let margin := if below then "          " else padded "" (width + 2)
    options.map fun option =>
      let explanation := (option.explanation configPath).replace "\n" ("\n" ++ margin)
      if below then option.heading ++ "\n" ++ margin ++ explanation
      else padded option.heading width ++ "  " ++ explanation

/-- Whether the explanations of a verb stand below the names of its options. -/
def explainsBelow : Verb → Bool
  | .promote => true
  | _ => false

/-- The lines at the end of a page. -/
def examples : Verb → List String
  | .promote =>
    ["  kargo promote --project=my-project --freight=abc123 --stage=qa",
      "  kargo promote --project=my-project --freight-alias=wonky-wombat --subscribers-of=qa",
      "  kargo config set-project my-project && kargo promote --freight=abc123 --stage=qa"]
  | _ => []

/-- The help page of a verb, with the path that the environment gives. -/
def helpPage (verb : Verb) (configPath : Option String) : String :=
  let sections :=
    [("Commands", verb.followerLines), ("Arguments", verb.operandLines),
      ("Options", verb.optionLines configPath verb.explainsBelow),
      ("Examples", verb.examples)].filter fun (_, lines) => !lines.isEmpty
  "\n".intercalate <|
    [line verb.about, line ("Usage: " ++ verb.title ++ " " ++ verb.synopsis)] ++
      sections.map fun (title, lines) => helpSection title lines

end Verb

end FreightPromotion.CommandLine
