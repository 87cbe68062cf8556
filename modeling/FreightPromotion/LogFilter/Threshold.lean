import FreightPromotion.Log

/-!
# Thresholds

A threshold says how much is shown: nothing, or the events of a level and of
those that matter more.  It has a number and a name.
-/

namespace FreightPromotion

/-- How much is shown: events of a level and of those that matter more, or
nothing. -/
structure Threshold where
  level? : Option Level
deriving DecidableEq, Repr

/-- How much has to be shown for an event of a level to be. -/
def Level.rank : Level → Nat
  | .error => 1
  | .warn => 2
  | .info => 3
  | .debug => 4
  | .trace => 5

namespace Threshold

/-- Shows nothing. -/
def off : Threshold := ⟨none⟩

/-- Shows events of a level and of those that matter more. -/
def upTo (level : Level) : Threshold := ⟨some level⟩

/-- Shows everything. -/
def everything : Threshold := upTo .trace

/-- Whether events of a level are shown. -/
def admits (threshold : Threshold) (level : Level) : Bool :=
  threshold.level?.any fun limit => level.rank ≤ limit.rank

/-- The thresholds by their numbers. -/
def numbered : List Threshold :=
  [off, upTo .error, upTo .warn, upTo .info, upTo .debug, upTo .trace]

/-- The thresholds by their names. -/
def named : List (String × Threshold) :=
  [("off", off), ("error", upTo .error), ("warn", upTo .warn), ("info", upTo .info),
    ("debug", upTo .debug), ("trace", upTo .trace)]

/-- The number that digits stand for, which may follow a plus sign. -/
def number? (characters : List Char) : Option Nat :=
  let digits := if characters.head? = some '+' then characters.tail else characters
  if !digits.isEmpty && digits.all Char.isDigit then
    some (digits.foldl (fun total digit => total * 10 + (digit.toNat - '0'.toNat)) 0)
  else none

/-- The threshold that a number or a name, in any case, stands for. -/
def ofText? (text : String) : Option Threshold :=
  match number? text.toList with
  | some number => numbered[number]?
  | none => named.lookup (String.ofList (text.toList.map Char.toLower))

end Threshold

end FreightPromotion
