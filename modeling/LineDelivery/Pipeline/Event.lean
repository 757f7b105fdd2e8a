import LineDelivery.Backlog
import LineDelivery.DeliveryError
import LineDelivery.LineBuffer

/-!
# What happens in a writer

Every step of a writer that matters to a caller, a callback, the counters or the log is one event.
The history of a writer is the list of its events with their instants.
-/

namespace LineDelivery.Pipeline

/-- What a writer has done so far. -/
structure Stats where
  batchesSent : Nat := 0
  batchesFailed : Nat := 0
  batchesExpired : Nat := 0
  retriesScheduled : Nat := 0
  linesSkipped : Nat := 0
  encodingFailures : Nat := 0
  deriving DecidableEq, Repr

inductive Event where
  | started (flushIntervalMillis maxRetries : Nat)
  /-- A chunk went into the line queue. -/
  | accepted (chunk : Bytes)
  /-- A chunk came after closing. -/
  | refused
  /-- A chunk came after the buffering loop had stopped. -/
  | lost
  | unencodable (error : DeliveryError)
  /-- A flush began and released so many batches from the backlog. -/
  | flushing (released : Nat)
  /-- The buffering loop took a chunk from the line queue. -/
  | gathered (chunk : Bytes)
  | cut (cut : LineBuffer.Cut)
  /-- A batch began to be handed over. -/
  | formed (batch : Batch)
  /-- The buffering loop stopped, and so many buffered lines were lost. -/
  | bufferingStopped (discardedLines : Nat)
  /-- The transport was called. -/
  | called (batch : Batch) (attempt : Nat)
  | answered (batch : Batch) (attempt : Nat) (error? : Option DeliveryError)
  /-- The backoff was told of a success. -/
  | backoffReset
  | delivered (batch : Batch) (attempt : Nat)
  /-- The failure handler was called; for a record that could not be encoded there is no batch. -/
  | reported (error : DeliveryError) (batch? : Option Batch) (attempt : Nat)
  /-- The backoff was asked for a delay. -/
  | delayed (error : DeliveryError) (attempt delay : Nat)
  | retrying (batch : Batch) (attempt : Nat) (error : DeliveryError) (delay : Nat)
  | abandoned (batch : Batch) (attempt : Nat) (error : DeliveryError)
  | expired (batch : Batch) (attempt : Nat)
  | backlog (event : Backlog.Event)
  /-- The transport broke the sending loop. -/
  | crashed (batch : Batch)
  | sendingStopped
  /-- Closing found the sending loop broken. -/
  | crashNoticed
  /-- Closing left so many lines in the backlog. -/
  | stopped (stats : Stats) (residual : Nat)
  deriving DecidableEq, Repr

end LineDelivery.Pipeline
