import FreightPromotion.Text.Utf8

/-!
# Sinks

Output goes into a sink, which may take only a number of bytes in all.  A write
that does not fit leaves in the sink what fitted and fails; after that every
write of at least one byte fails.
-/

namespace FreightPromotion

open FreightPromotion.Text (Bytes)

/-- What has been written, and how many more bytes are taken if there is a
limit. -/
structure Sink where
  written : Bytes := []
  room : Option Nat := none
deriving DecidableEq

/-- A sink that takes everything. -/
def Sink.unlimited : Sink := {}

/-- A sink that takes `room` bytes. -/
def Sink.limited (room : Nat) : Sink := { room := some room }

/-- Writes `content`.  The flag says whether all of it was taken. -/
def Sink.write (sink : Sink) (content : Bytes) : Sink × Bool :=
  match sink.room with
  | none => ({ sink with written := sink.written ++ content }, true)
  | some room =>
    (⟨sink.written ++ content.take room, some (room - content.length)⟩,
      decide (content.length ≤ room))

end FreightPromotion
