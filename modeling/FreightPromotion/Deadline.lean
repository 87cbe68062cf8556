/-!
# Deadlines

A call may have to be over within a time.  The time is counted from the moment
at which the command starts, and a deadline that lies beyond the range of the
clock is no deadline.
-/

namespace FreightPromotion

/-- The time that a call may take, in milliseconds, if it is limited. -/
structure Deadline where
  remaining : Option Nat := none
deriving DecidableEq, Repr

namespace Deadline

/-- No limit. -/
def none : Deadline := {}

/-- The number of seconds that the clock cannot add to any time. -/
def clockRange : Nat := Nat.pow 2 63

/-- A limit of so many seconds from now. -/
def afterSeconds (seconds : Nat) : Deadline :=
  if clockRange ≤ seconds then .none else ⟨some (seconds * 1000)⟩

/-- A limit of so many milliseconds from now. -/
def afterMilliseconds (milliseconds : Nat) : Deadline := ⟨some milliseconds⟩

/-- Whether no time is left. -/
def isExpired (deadline : Deadline) : Bool :=
  deadline.remaining = some 0

end Deadline

end FreightPromotion
