import FreightPromotion.LogFilter.Directive

/-!
# Log filters

A log filter says which events are shown.  It is a list of directives, separated
by commas.  Of the directives that concern an event the most specific one
decides, and of two that are alike the later one.

A filter without directives shows errors.
-/

namespace FreightPromotion

/-- Which events are shown. -/
structure LogFilter where
  directives : List Directive
deriving DecidableEq, Repr

namespace LogFilter

/-- Shows events of a level and of those that matter more, whatever their
source. -/
def upTo (level : Level) : LogFilter := ⟨[{ threshold := .upTo level }]⟩

/-- Reads a filter, if each of its directives can be read. -/
def ofText? (text : String) : Option LogFilter :=
  match ((text.splitOn ",").filter (!·.isEmpty)).mapM Directive.ofText? with
  | some [] => some (.upTo .error)
  | some directives => some ⟨directives⟩
  | none => none

/-- The filter that the environment asks for.  Warnings and errors are shown if
it asks for none, or for one that cannot be read. -/
def ofVariable (text? : Option String) : LogFilter :=
  (text?.bind ofText?).getD (.upTo .warn)

/-- The directive that decides on an event. -/
def deciding? (filter : LogFilter) (event : Event) : Option Directive :=
  (filter.directives.filter (·.concerns event)).foldl
    (fun best directive =>
      if best.all (·.isNoMoreSpecific directive) then some directive else best)
    none

/-- Whether an event is shown. -/
def shows (filter : LogFilter) (event : Event) : Bool :=
  (filter.deciding? event).any fun directive => directive.threshold.admits event.level

end LogFilter

end FreightPromotion
