import FreightPromotion.Failure
import FreightPromotion.Promotion
import FreightPromotion.Sink
import FreightPromotion.Yaml.Block

/-!
# Printing objects

A printer turns an object into parts, and the parts are written in order.  When
the sink is full, the failure names the part that did not fit.

Only the printer of block style has a state: it separates an object from the one
before, and an object counts as printed when all of its parts were written.
-/

namespace FreightPromotion

open FreightPromotion.Text (Bytes)

/-! ## Parts -/

/-- What is written at a time. -/
inductive Part where
  | summary
  | jsonDocument
  | jsonEnd
  | yamlSeparator
  | yamlDocument
  | nameLine
deriving DecidableEq, Repr

/-- The label of the failure to write a part. -/
def Part.label : Part → String
  | .summary => "write promotion"
  | .jsonDocument => "serialize promotion json"
  | .jsonEnd => "write promotion json"
  | .yamlSeparator => "write yaml separator"
  | .yamlDocument => "write promotion yaml"
  | .nameLine => "write promotion name"

/-- The failure to write a part. -/
def Part.failure (part : Part) : Failure :=
  { labels := [part.label]
    cause := if part = .jsonDocument then .closedInDocument else .closed }

/-- Writes parts in order until one does not fit. -/
def writeParts (sink : Sink) : List (Part × Bytes) → Sink × Result Unit
  | [] => (sink, .ok ())
  | (part, content) :: parts =>
    let (sink, taken) := sink.write content
    if taken then writeParts sink parts else (sink, .error part.failure)

/-! ## Printers -/

/-- A printer for a format. -/
inductive Printer where
  | json
  /-- Counts the objects printed so far. -/
  | yaml (printed : Nat)
  | name
deriving DecidableEq, Repr

/-- A new printer for the format with the given name. -/
def Printer.ofLabel (label : String) : Result Printer :=
  match label with
  | "json" => .ok .json
  | "yaml" => .ok (.yaml 0)
  | "name" => .ok .name
  | other =>
    .error (.ofMessage
      ("unsupported output format " ++ Text.quote other ++ " (allowed: " ++
        ", ".intercalate supportedFormats ++ ")"))

/-- The group that an interface belongs to: its version up to the first slash. -/
def Resource.group (resource : Resource) : String :=
  String.ofList (resource.apiVersion.toList.takeWhile (· ≠ '/'))

/-- The line that names a resource: its kind in lower case, its group and its
name. -/
def Resource.nameLine (resource : Resource) : String :=
  String.ofList (resource.kind.toList.map Char.toLower) ++ "." ++ resource.group ++ "/" ++
    resource.metadata.name ++ "\n"

/-- The parts in which a printer writes a resource. -/
def Printer.parts (printer : Printer) (resource : Resource) : List (Part × Bytes) :=
  match printer with
  | .json =>
    [(.jsonDocument, Text.encode resource.document.pretty), (.jsonEnd, Text.encode "\n")]
  | .yaml printed =>
    (if printed = 0 then [] else [(.yamlSeparator, Text.encode "---\n")]) ++
      [(.yamlDocument, Text.encode (Yaml.document resource.document))]
  | .name => [(.nameLine, Text.encode resource.nameLine)]

/-- The printer after it has printed an object. -/
def Printer.next : Printer → Printer
  | .yaml printed => .yaml (printed + 1)
  | printer => printer

/-- A printer and the sink it prints into. -/
structure Press where
  printer : Printer
  sink : Sink

/-- Prints one resource. -/
def Press.print (press : Press) (resource : Resource) : Press × Result Unit :=
  let (sink, result) := writeParts press.sink (press.printer.parts resource)
  match result with
  | .ok () => (⟨press.printer.next, sink⟩, .ok ())
  | .error failure => (⟨press.printer, sink⟩, .error failure)

/-- Prints resources in order until one fails. -/
def Press.printAll (press : Press) : List Resource → Press × Result Unit
  | [] => (press, .ok ())
  | resource :: resources =>
    match press.print resource with
    | (press, .ok ()) => press.printAll resources
    | (press, .error failure) => (press, .error failure)

/-! ## Summaries -/

/-- The line that tells of a promotion when no format was asked for. -/
def Promotion.summary (promotion : Promotion) : String :=
  "Promotion Created: " ++ Text.quote promotion.name ++ "\n"

/-- How promotions are shown: a summary line each, or by a printer. -/
inductive Presentation where
  | summary
  | printed (printer : Printer)
deriving DecidableEq, Repr

/-- Shows promotions in order.  The presentation is returned for the next ones. -/
def Presentation.show (presentation : Presentation) (promotions : List Promotion) (sink : Sink) :
    Presentation × Sink × Result Unit :=
  match presentation with
  | .summary =>
    let parts := promotions.map fun promotion => (Part.summary, Text.encode promotion.summary)
    let (sink, result) := writeParts sink parts
    (.summary, sink, result)
  | .printed printer =>
    let (press, result) := Press.printAll ⟨printer, sink⟩ (promotions.map Promotion.resource)
    (.printed press.printer, press.sink, result)

end FreightPromotion
