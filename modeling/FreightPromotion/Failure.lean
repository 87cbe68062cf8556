import FreightPromotion.Http.Host
import FreightPromotion.Json.Fault
import FreightPromotion.Options

/-!
# Failures

A failure has a cause, and on its way to the user it gathers labels that say
what was being done.  It is shown as a chain from the outermost label to the
cause.
-/

namespace FreightPromotion

/-- What the file system answers instead of doing what it was asked. -/
inductive FileFault where
  | notFound
  | isDirectory
  | notDirectory
  | alreadyExists
  | notEmpty
  | busy
  | invalid
  | nameTooLong
  | nulInName
deriving DecidableEq, Repr

/-- The wording of a fault of the file system, with the system's own number. -/
def FileFault.message : FileFault → String
  | .notFound => "No such file or directory (os error 2)"
  | .alreadyExists => "File exists (os error 17)"
  | .notDirectory => "Not a directory (os error 20)"
  | .isDirectory => "Is a directory (os error 21)"
  | .invalid => "Invalid argument (os error 22)"
  | .busy => "Device or resource busy (os error 16)"
  | .nameTooLong => "File name too long (os error 36)"
  | .notEmpty => "Directory not empty (os error 39)"
  | .nulInName => "file name contained an unexpected NUL byte"

/-- Why something failed. -/
inductive Failure.Cause where
  /-- The options break rules. -/
  | invalidOptions (violations : List Violation)
  /-- The deadline had passed before the call was made. -/
  | deadlineExceeded
  /-- A document cannot be read. -/
  | malformed (fault : Json.Malformed)
  /-- The sink was full before the end of a document. -/
  | closedInDocument
  /-- The sink was full. -/
  | closed
  /-- The file system refused. -/
  | file (fault : FileFault)
  /-- A message could not be delivered or did not arrive; what is known of it
  is the label alone. -/
  | transport
  /-- A message cannot be sent to its address. -/
  | address (fault : Http.AddressFault)
  /-- A message cannot show the token, which holds what a header must not hold. -/
  | header
  /-- Something else, in words. -/
  | message (text : String)
deriving DecidableEq

/-- A cause with the labels put around it, outermost first. -/
structure Failure where
  labels : List String := []
  cause : Failure.Cause
deriving DecidableEq

namespace Failure

/-- A failure described in words. -/
def ofMessage (text : String) : Failure := { cause := .message text }

/-- Puts a label around a failure. -/
def within (label : String) (failure : Failure) : Failure :=
  { failure with labels := label :: failure.labels }

/-- The texts of a cause, outermost first, if it has any of its own. -/
def Cause.texts : Cause → List String
  | .invalidOptions violations => [Violation.report violations]
  | .deadlineExceeded => ["context deadline exceeded"]
  | .malformed fault => [fault.message]
  | .closedInDocument => ["closed"]
  | .closed => ["closed"]
  | .file fault => [fault.message]
  | .transport => []
  | .address fault =>
    match fault.address? with
    | none => ["builder error", fault.message]
    | some place => ["builder error for url (" ++ place ++ ")", fault.message]
  | .header => ["builder error", "failed to parse header value"]
  | .message text => [text]

/-- The texts of a failure, outermost first. -/
def chain (failure : Failure) : List String :=
  failure.labels ++ failure.cause.texts

/-- A failure in one text. -/
def message (failure : Failure) : String :=
  ": ".intercalate failure.chain

theorem message_ofMessage (text : String) : (ofMessage text).message = text := by
  simp [ofMessage, message, chain, Cause.texts]

/-- A failure given by its chain, the last text being the cause. -/
def ofChain? (chain : List String) : Option Failure :=
  chain.getLast?.map fun text => ⟨chain.dropLast, .message text⟩

end Failure

/-- The result of what may fail. -/
abbrev Result (α : Type) := Except Failure α

/-- Puts a label around the failure of a result. -/
def Result.within {α : Type} (label : String) (result : Result α) : Result α :=
  result.mapError (Failure.within label)

end FreightPromotion
