import FreightPromotion.Command
import FreightPromotion.CommandLine.Complaint

/-!
# Reading the command line

The arguments are read one after the other.  A word leads from a verb to another
one, or it is an operand, or the value of the option before it; an argument that
starts with a dash names options.  After two dashes alone, every argument is an
operand.

What is read for a verb is kept apart from what is read for the others, so that
an option may be given once for each.  The value of an option that is an
argument of its own is checked when the next option starts or the verb ends,
and the verb that follows is read to its end before that.
-/

namespace FreightPromotion.CommandLine

/-- What command lines are read by: the options that every verb shares, and the
value of the path option that holds when it is not given for a verb. -/
structure Usage where
  shared : List Parameter := Parameter.shared
  configPath : Option String := none

/-- The options that are known for a verb. -/
def Usage.options (usage : Usage) (verb : Verb) : List Parameter :=
  usage.shared ++ verb.options ++ [.help]

/-- What has been read for one verb: the values in the order in which they came
(the empty text for an option that takes none), the option that was read last
with its value unless that is still to come, and whether options have ended. -/
structure Reading where
  values : List (Parameter × String) := []
  latest : Option (Parameter × Option String) := none
  optionsEnded : Bool := false

namespace Reading

/-- What is wrong with the value of a parameter. -/
def valueComplaint? (parameter : Parameter) (value : String) : Option Complaint :=
  match parameter with
  | .config => if value.isEmpty then some (.missingValue .config) else none
  | .requestTimeout =>
    match readCount value with
    | .ok _ => none
    | .error fault => some (.invalidCount .requestTimeout value fault)
  | _ => none

/-- Whether a parameter was given. -/
def has (reading : Reading) (parameter : Parameter) : Bool :=
  reading.values.any fun given => given.1 = parameter

/-- Adds a value, which has to be the only one of its parameter. -/
def add (reading : Reading) (parameter : Parameter) (value : String) :
    Except Complaint Reading :=
  if reading.has parameter then .error (.repeated parameter)
  else
    match valueComplaint? parameter value with
    | some complaint => .error complaint
    | none => .ok { reading with values := reading.values ++ [(parameter, value)] }

/-- Adds the value of the option that was read last. -/
def settle (reading : Reading) : Except Complaint Reading :=
  match reading.latest with
  | none => .ok reading
  | some (parameter, none) => .error (.missingValue parameter)
  | some (parameter, some value) => { reading with latest := none }.add parameter value

/-- Reads an option that takes a value, with the value if it is attached. -/
def addOption (reading : Reading) (parameter : Parameter) (attached : Option String) :
    Except Complaint Reading := do
  let reading ← reading.settle
  match attached with
  | some value => reading.add parameter value
  | none => return { reading with latest := some (parameter, none) }

/-- Reads an option that takes no value. -/
def addFlag (reading : Reading) (verb : Verb) (parameter : Parameter) :
    Except Complaint Reading := do
  let reading ← reading.settle
  if parameter = .help then .error (.helpWanted verb) else reading.add parameter ""

/-- Reads what follows two dashes: the name of an option, perhaps with a value
after an equals sign. -/
def addNamed (reading : Reading) (usage : Usage) (verb : Verb) (argument : List Char) :
    Except Complaint Reading :=
  let name := String.ofList (argument.takeWhile (· ≠ '='))
  let attached :=
    match argument.dropWhile (· ≠ '=') with
    | [] => none
    | _ :: value => some (String.ofList value)
  match (usage.options verb).find? (·.name = name) with
  | none => .error (.unexpectedArgument ("--" ++ name))
  | some parameter =>
    match parameter.placeholder?, attached with
    | some _, attached => reading.addOption parameter attached
    | none, some value => .error (.superfluousValue parameter value)
    | none, none => reading.addFlag verb parameter

/-- The value attached to a letter, which may follow an equals sign. -/
def attachedValue? : List Char → Option String
  | [] => none
  | '=' :: value => some (String.ofList value)
  | value => some (String.ofList value)

/-- Reads what follows one dash: letters of options, the last one perhaps with a
value. -/
def addLetters (reading : Reading) (usage : Usage) (verb : Verb) :
    List Char → Except Complaint Reading
  | [] => .ok reading
  | letter :: rest =>
    match (usage.options verb).find? (·.letter? = some letter) with
    | none => .error (.unexpectedArgument (String.ofList ['-', letter]))
    | some parameter =>
      match parameter.placeholder? with
      | some _ => reading.addOption parameter (attachedValue? rest)
      | none => do
        let reading ← reading.addFlag verb parameter
        reading.addLetters usage verb rest

/-- The complaint about a word that has no place.  Where a verb has to follow,
the word stands for an unknown one, unless options have ended and it would have
been known before. -/
def strayWord (reading : Reading) (verb : Verb) (word : String) : Complaint :=
  if verb.followers.isEmpty || (reading.optionsEnded && (verb.follower? word).isSome) then
    .unexpectedArgument word
  else .unknownVerb word

/-- Reads a word that is an operand. -/
def addOperand (reading : Reading) (verb : Verb) (word : String) : Except Complaint Reading :=
  match verb.operand? with
  | none => .error (reading.strayWord verb word)
  | some parameter =>
    if reading.has parameter then .error (reading.strayWord verb word)
    else do
      let reading ← reading.settle
      reading.add parameter word

/-- The option that still lacks its value. -/
def awaiting? (reading : Reading) : Option Parameter :=
  match reading.latest with
  | some (parameter, none) => some parameter
  | _ => none

/-- Reads an argument that does not lead to another verb. -/
def addArgument (reading : Reading) (usage : Usage) (verb : Verb) (argument : String) :
    Except Complaint Reading :=
  if reading.optionsEnded then reading.addOperand verb argument
  else
    match argument.toList with
    | ['-', '-'] => .ok { reading with optionsEnded := true }
    | '-' :: '-' :: named => reading.addNamed usage verb named
    | '-' :: letter :: letters => reading.addLetters usage verb (letter :: letters)
    | _ =>
      match reading.awaiting? with
      | some parameter => .ok { reading with latest := some (parameter, some argument) }
      | none => reading.addOperand verb argument

/-- The verb that an argument leads to.  The value of an option leads nowhere. -/
def next? (reading : Reading) (verb : Verb) (argument : String) : Option Verb :=
  if reading.optionsEnded || reading.awaiting?.isSome then none else verb.follower? argument

/-- Ends the part of the command line that belongs to a verb. -/
def finish (reading : Reading) (usage : Usage) : Except Complaint Reading := do
  let reading ← reading.settle
  if !reading.has .config && usage.configPath = some "" then .error (.missingValue .config)
  else return reading

/-! ## Commands -/

/-- The value that was given for a parameter. -/
def value? (reading : Reading) (parameter : Parameter) : Option String :=
  reading.values.lookup parameter

/-- The first parameter, in the order of their values, that excludes another one
that was given, and that one. -/
def conflict? (reading : Reading) (verb : Verb) : Option (Parameter × Parameter) :=
  reading.values.findSome? fun (first, _) =>
    ((verb.requirements.filter (·.contains first)).flatten.find? fun second =>
      second ≠ first && reading.has second).map fun second => (first, second)

/-- The requirements that nothing was given for. -/
def unmet (reading : Reading) (verb : Verb) : List (List Parameter) :=
  verb.requirements.filter fun alternatives => !alternatives.any reading.has

/-- Checks the values of a verb that no other one follows. -/
def check (reading : Reading) (verb : Verb) : Except Complaint Unit :=
  match reading.conflict? verb, reading.unmet verb with
  | some (first, second), _ => .error (.conflict first second)
  | none, [] => .ok ()
  | none, requirements => .error (.missing requirements)

/-- The arguments of a promotion. -/
def promoteArguments (reading : Reading) : PromoteArguments where
  project := reading.value? .project
  freight := reading.value? .freight
  freightAlias := reading.value? .freightAlias
  stage := reading.value? .stage
  subscribersOf := reading.value? .subscribersOf
  output := reading.value? .output

/-- The complaint about a verb that has to be followed by another. -/
def unfollowed (reading : Reading) (usage : Usage) (verb : Verb) : Complaint :=
  if reading.values.isEmpty && usage.configPath.isNone then .bareVerb verb
  else .missingVerb verb

/-- The command of a verb that no other one follows. -/
def command (reading : Reading) (usage : Usage) (verb : Verb) : Except Complaint Command := do
  reading.check verb
  match verb with
  | .promote => return .promote reading.promoteArguments
  | .viewSettings => return .viewSettings (reading.has .json)
  | .setProject => return .setProject ((reading.value? .projectOperand).getD "")
  | .setServer => return .setServer ((reading.value? .serverOperand).getD "")
  | .start | .config => .error (reading.unfollowed usage verb)
  | .help | .configHelp => .error (.helpWanted verb)

end Reading

/-! ## Whole command lines -/

/-- What a command line comes to: the command, and the values given for every
verb, those for the first one first. -/
structure Line where
  values : List (Parameter × String)
  command : Command

/-- The help that words lead to. -/
def helpOn (verb : Verb) : List String → Complaint
  | [] => .helpWanted verb
  | word :: words =>
    match verb.follower? word with
    | some next => helpOn next words
    | none => .unknownVerb word

/-- Reads the arguments that follow those read for a verb. -/
def readFrom (usage : Usage) (verb : Verb) (reading : Reading) :
    List String → Except Complaint Line
  | [] => do
    let reading ← reading.finish usage
    let command ← reading.command usage verb
    return ⟨reading.values, command⟩
  | argument :: arguments =>
    match reading.next? verb argument with
    | some next =>
      if next.isHelp then .error (helpOn verb arguments)
      else do
        let line ← readFrom usage next {} arguments
        let reading ← reading.finish usage
        return { line with values := reading.values ++ line.values }
    | none => do
      let reading ← reading.addArgument usage verb argument
      readFrom usage verb reading arguments

/-- Reads a command line, given by its arguments. -/
def read (usage : Usage) (arguments : List String) : Except Complaint Line :=
  readFrom usage .start {} arguments

/-- The value of a parameter, which is the one given last. -/
def Line.value? (line : Line) (parameter : Parameter) : Option String :=
  line.values.reverse.lookup parameter

end FreightPromotion.CommandLine
