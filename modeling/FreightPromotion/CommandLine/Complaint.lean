import FreightPromotion.CommandLine.Count
import FreightPromotion.CommandLine.Verb
import FreightPromotion.Text.Unstyled

/-!
# Complaints about the command line

A command line that does not lead to a command is answered with a complaint, or
with help if that is what was asked for.
-/

namespace FreightPromotion.CommandLine

/-- Why a command line does not lead to a command. -/
inductive Complaint where
  /-- Help on a verb was asked for. -/
  | helpWanted (verb : Verb)
  /-- Nothing follows a verb that has to be followed by another. -/
  | bareVerb (verb : Verb)
  /-- Only options follow a verb that has to be followed by another. -/
  | missingVerb (verb : Verb)
  /-- A word does not lead from a verb to another. -/
  | unknownVerb (word : String)
  /-- An argument belongs to no parameter. -/
  | unexpectedArgument (argument : String)
  /-- An option lacks its value. -/
  | missingValue (parameter : Parameter)
  /-- A value is attached to an option that takes none. -/
  | superfluousValue (parameter : Parameter) (value : String)
  /-- The value of an option is no count. -/
  | invalidCount (parameter : Parameter) (value : String) (fault : CountFault)
  /-- A parameter was given twice. -/
  | repeated (parameter : Parameter)
  /-- Two parameters were given that exclude each other. -/
  | conflict (first second : Parameter)
  /-- Requirements are not met. -/
  | missing (requirements : List (List Parameter))
deriving DecidableEq, Repr

namespace Complaint

/-- What the user wrote, between quotes. -/
def quoted (word : String) : String :=
  "'" ++ Text.unstyled word ++ "'"

/-- The wording of a complaint.  Requests for help have none. -/
def message? : Complaint → Option String
  | helpWanted _ => none
  | bareVerb _ => none
  | missingVerb verb =>
    some ("'" ++ verb.title ++ "' requires a subcommand but one was not provided\n" ++
      "  [subcommands: " ++ ", ".intercalate (verb.followers.map Prod.fst) ++ "]")
  | unknownVerb word => some ("unrecognized subcommand " ++ quoted word)
  | unexpectedArgument argument => some ("unexpected argument " ++ quoted argument ++ " found")
  | missingValue parameter =>
    some ("a value is required for '" ++ parameter.text ++ "' but none was supplied")
  | superfluousValue parameter value =>
    some ("unexpected value " ++ quoted value ++ " for '" ++ parameter.text ++
      "' found; no more were expected")
  | invalidCount parameter value fault =>
    some ("invalid value " ++ quoted value ++ " for '" ++ parameter.text ++ "': " ++
      fault.message)
  | repeated parameter =>
    some ("the argument '" ++ parameter.text ++ "' cannot be used multiple times")
  | conflict first second =>
    some ("the argument '" ++ first.text ++ "' cannot be used with '" ++ second.text ++ "'")
  | missing requirements =>
    some ("the following required arguments were not provided:" ++
      String.join (requirements.map fun requirement => "\n  " ++ requirementText requirement))

end Complaint

end FreightPromotion.CommandLine
