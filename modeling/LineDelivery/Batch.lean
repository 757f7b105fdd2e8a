import LineDelivery.Line
import LineDelivery.Time

/-!
# Batches

A batch is the unit of delivery: a run of chunks that goes to the transport in one call, the number
of retries it has left, and the instant from which it is no longer worth sending. Its serial number
says how many batches were formed before it.
-/

namespace LineDelivery

structure Batch where
  serial : Nat
  chunks : List Bytes
  remaining : Nat
  expires : Nat
  deriving DecidableEq, Repr

namespace Batch

/-- Forms a batch now, with all its retries and all its time before it. -/
def form (serial : Nat) (chunks : List Bytes) (maxRetries : Nat) (now : Nat)
    (maxRetryTime : Nat) : Batch :=
  { serial, chunks, remaining := maxRetries, expires := Time.deadline now maxRetryTime }

/-- The bytes that the transport is given. -/
def lines (batch : Batch) : Bytes :=
  batch.chunks.flatten

def lineCount (batch : Batch) : Nat :=
  Line.count batch.lines

def hasExpired (batch : Batch) (now : Nat) : Bool :=
  batch.expires ≤ now

end Batch

end LineDelivery
