import FreightPromotion.LogFilter.Layout
import FreightPromotion.LogFilter.Pattern
import FreightPromotion.LogFilter.Threshold

/-!
# Directives of a log filter

A directive gives a threshold to the events that it concerns.  It may name what
the source of such an event begins with, and a field that it has.  It may also
name a span or the value of a field; it then concerns what happens within a span.
The program has no spans, so no event is concerned by such a directive.
-/

namespace FreightPromotion

/-- What is asked of the fields of an event: one with a name, and perhaps with a
value. -/
structure FieldCondition where
  name : String
  value? : Option String := none
deriving DecidableEq, Repr

namespace FieldCondition

/-- Whether an exponent, or nothing, is left of a number. -/
def isExponent : List Char → Bool
  | [] => true
  | letter :: rest =>
    let digits :=
      match rest with
      | '+' :: digits => digits
      | '-' :: digits => digits
      | digits => digits
    (letter = 'e' || letter = 'E') && !digits.isEmpty && digits.all Char.isDigit

/-- Whether characters are a number without a sign: digits before or after an
optional point with an optional exponent, an infinity, or the undefined number. -/
def isMagnitude (characters : List Char) : Bool :=
  let whole := characters.takeWhile Char.isDigit
  let (fraction, rest) :=
    match characters.dropWhile Char.isDigit with
    | '.' :: digits => (digits.takeWhile Char.isDigit, digits.dropWhile Char.isDigit)
    | rest => ([], rest)
  String.ofList (characters.map Char.toLower) ∈ ["inf", "infinity", "nan"] ||
    !(whole ++ fraction).isEmpty && isExponent rest

/-- Whether a text can be the value of a field: a number, or a pattern that the
value matches.  All numbers but those with a plus sign are patterns. -/
def isValue (value : String) : Bool :=
  match value.toList with
  | '+' :: magnitude => isMagnitude magnitude
  | characters => Pattern.isPattern characters

/-- Reads a condition: a name, or a name and a value with an equals sign between
them.  What follows a second equals sign does not count. -/
def ofText? (text : String) : Option FieldCondition :=
  match text.splitOn "=" with
  | name :: value :: _ => if isValue value then some { name, value? := some value } else none
  | [name] => some { name }
  | [] => none

end FieldCondition

/-- How much is shown of some events. -/
structure Directive where
  /-- What the sources begin with; all sources if there is none. -/
  source? : Option String := none
  /-- The span that the events happen in. -/
  span? : Option String := none
  /-- What is asked of the fields. -/
  field? : Option FieldCondition := none
  threshold : Threshold
deriving DecidableEq, Repr

/-- The names of the fields of an event.  Its message is one of them. -/
def Event.fieldNames (event : Event) : List String :=
  "message" :: event.fields.map Prod.fst

namespace Directive

/-- Whether a directive is about what happens within spans. -/
def isAboutSpans (directive : Directive) : Bool :=
  directive.span?.isSome || directive.field?.any (·.value?.isSome)

/-- Whether a directive is about an event. -/
def concerns (directive : Directive) (event : Event) : Bool :=
  !directive.isAboutSpans &&
    directive.source?.all (fun source => source.toList.isPrefixOf event.source.toList) &&
    directive.field?.all (fun field => field.name ∈ event.fieldNames)

/-- How much of a source a directive gives.  One for all sources gives least. -/
def extent (directive : Directive) : Nat :=
  match directive.source? with
  | none => 0
  | some source => source.utf8ByteSize + 1

/-- Whether one directive says no more about the events that both concern than
another.  More of a source counts first, then a field, and then, so that the
order is total, the name of the field. -/
def isNoMoreSpecific (first second : Directive) : Bool :=
  if first.extent ≠ second.extent then first.extent < second.extent
  else
    match first.field?, second.field? with
    | none, _ => true
    | some _, none => false
    | some field, some other => field.name ≤ other.name

/-- The threshold of a directive; everything is shown if it gives none. -/
def threshold? : Option String → Option Threshold
  | none => some .everything
  | some text => if text.isEmpty then some .everything else Threshold.ofText? text

/-- Reads a directive that has a layout. -/
def ofLayout? (text : String) : Layout → Option Directive
  | .word =>
    match Threshold.ofText? text with
    | some threshold => some { threshold }
    | none => some { source? := some text, threshold := .everything }
  | .parts source? span? field? threshold? => do
    let source? ← source?.mapM (·.cut? text)
    let span? ← span?.mapM (·.cut? text)
    let field? ← field?.mapM fun field => (field.cut? text).bind FieldCondition.ofText?
    let threshold ← Directive.threshold? (← threshold?.mapM (·.cut? text))
    some { source?, span?, field?, threshold }

/-- Reads a directive. -/
def ofText? (text : String) : Option Directive :=
  (Layout.ofChars? (Text.trimmed text.toList)).bind (ofLayout? text)

end Directive

end FreightPromotion
