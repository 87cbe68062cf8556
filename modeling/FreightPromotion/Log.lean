import FreightPromotion.Text.Quoted

/-!
# The log

The program tells what it does by events.  An event has a level, the part of the
program that it comes from, a message and fields.
-/

namespace FreightPromotion

/-- How much an event matters. -/
inductive Level where
  | error
  | warn
  | info
  | debug
  | trace
deriving DecidableEq, Repr

/-- The name of a level, five characters wide. -/
def Level.label : Level → String
  | .error => "ERROR"
  | .warn => " WARN"
  | .info => " INFO"
  | .debug => "DEBUG"
  | .trace => "TRACE"

/-- The value of a field: a text shown as it is, a text between quotes, or a
number. -/
inductive FieldValue where
  | plain (text : String)
  | quoted (text : String)
  | count (value : Nat)
deriving DecidableEq, Repr

/-- How the value of a field is shown. -/
def FieldValue.text : FieldValue → String
  | .plain text => text
  | .quoted text => Text.quote text
  | .count value => toString value

/-- Something that happened.  `source` is the part of the program it comes
from, outermost first. -/
structure Event where
  level : Level
  source : String
  message : String
  fields : List (String × FieldValue)
deriving DecidableEq, Repr

/-- The line of an event. -/
def Event.line (event : Event) : String :=
  event.level.label ++ " " ++ event.message ++
    String.join (event.fields.map fun (name, value) => " " ++ name ++ "=" ++ value.text)

end FreightPromotion
