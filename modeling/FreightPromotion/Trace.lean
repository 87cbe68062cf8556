import FreightPromotion.Http.Post
import FreightPromotion.Log
import FreightPromotion.Request

/-!
# Traces

What a command does to the world outside, apart from its output and its files,
is recorded step by step: the events that it logs, the attempt to reach the
server, the call of an operation and the message that is sent.  A computation
returns its steps with its value, so that how often and in which order they
happen are statements about a list.
-/

namespace FreightPromotion

/-- One step of a computation. -/
inductive Step where
  /-- An event is logged. -/
  | event (event : Event)
  /-- The service is asked for. -/
  | connect
  /-- An operation of the service is called. -/
  | call (request : Request)
  /-- A message is sent. -/
  | post (message : Http.Post)
deriving DecidableEq, Repr

/-- A value with the steps that led to it. -/
structure Traced (α : Type) where
  steps : List Step := []
  value : α

namespace Traced

/-- Takes one step. -/
def step (step : Step) : Traced Unit := ⟨[step], ()⟩

/-- Logs an event. -/
def log (event : Event) : Traced Unit := step (.event event)

instance : Monad Traced where
  pure value := ⟨[], value⟩
  bind first next :=
    let second := next first.value
    ⟨first.steps ++ second.steps, second.value⟩

@[simp]
theorem steps_pure {α : Type} (value : α) : (pure value : Traced α).steps = [] := rfl

@[simp]
theorem value_pure {α : Type} (value : α) : (pure value : Traced α).value = value := rfl

@[simp]
theorem steps_bind {α β : Type} (first : Traced α) (next : α → Traced β) :
    (first >>= next).steps = first.steps ++ (next first.value).steps := rfl

@[simp]
theorem value_bind {α β : Type} (first : Traced α) (next : α → Traced β) :
    (first >>= next).value = (next first.value).value := rfl

/-- The events among the steps. -/
def events (steps : List Step) : List Event :=
  steps.filterMap fun
    | .event event => some event
    | _ => none

/-- The operations called. -/
def calls (steps : List Step) : List Request :=
  steps.filterMap fun
    | .call request => some request
    | _ => none

/-- The messages sent. -/
def posts (steps : List Step) : List Http.Post :=
  steps.filterMap fun
    | .post message => some message
    | _ => none

end Traced

end FreightPromotion
