import LineDelivery.Pipeline.Event
import LineDelivery.Pipeline.Setup

/-!
# The state of a writer

A client's lines go through a bounded line queue to the buffering loop, which cuts batches and hands
them through a bounded batch queue to the sending loop, which calls the transport. A failed batch
waits in the backlog, whose alarm puts it into an unbounded retry queue before the sending loop.
A flush sends a barrier down the same way and waits until nobody holds it any more.
-/

namespace LineDelivery.Pipeline

/-- What the buffering loop has still to hand over. -/
inductive Outgoing where
  | cut (cut : LineBuffer.Cut)
  | barrier
  deriving DecidableEq, Repr

/-- What goes through the batch queue. -/
inductive Parcel where
  | batch (batch : Batch)
  | barrier
  deriving DecidableEq, Repr

structure Buffering where
  running : Bool
  buffer : LineBuffer
  outbox : List Outgoing
  /-- What is being handed over now. -/
  handing? : Option Parcel
  /-- The flush timer starts anew as soon as the outbox is empty. -/
  restart : Bool
  flushAt : Nat
  /-- How many batches were formed, which is the next serial number. -/
  formed : Nat
  deriving DecidableEq, Repr

/-- A call of the transport, by its number, and when it ends. -/
structure Call where
  batch : Batch
  attempt : Nat
  asked : Nat
  endsAt : Nat
  deriving DecidableEq, Repr

inductive Sending where
  | idle
  | calling (call : Call)
  | stopped
  | crashed
  deriving DecidableEq, Repr

namespace Sending

def isOver : Sending → Bool
  | idle => false
  | calling _ => false
  | stopped => true
  | crashed => true

end Sending

/-- What a client asks for. -/
inductive Request where
  | line (chunk : Bytes)
  /-- A record that cannot be encoded. -/
  | unencodable (error : DeliveryError)
  | flush
  | close
  /-- The writer is given up without being closed. -/
  | giveUp
  | sleep (duration : Nat)
  deriving DecidableEq, Repr

/-- What an encoder made of a record: all it put out, and why it failed if it did. -/
structure Encoded where
  output : Bytes
  fault? : Option DeliveryError
  deriving DecidableEq, Repr

/-- The output of an encoder counts only if the encoder succeeded. -/
def Request.ofEncoded (encoded : Encoded) : Request :=
  match encoded.fault? with
  | none => .line encoded.output
  | some error => .unencodable error

/-- Raw bytes as an encoded record. -/
def Encoded.ofBytes (record : Bytes) : Encoded :=
  { output := Line.append [] record, fault? := none }

/-- What a client waits for. -/
inductive Wait where
  /-- The barrier of a flush. -/
  | barrier
  /-- The end of both loops, with the lines that closing left in the backlog. -/
  | bothLoops (residual : Nat)
  | instant (time : Nat)
  deriving DecidableEq, Repr

structure State where
  now : Nat
  /-- What the client has still to do in its present call. -/
  requests : List Request
  wait? : Option Wait
  /-- What the latest closing answered: the counters, and the lines left in the backlog. -/
  closed? : Option (Stats × Nat)
  lineQueue : List Bytes
  flushAsked : Bool
  buffering : Buffering
  batchQueue : List Parcel
  retryQueue : List Batch
  sending : Sending
  backlog : Backlog
  /-- The writer was closed or given up. -/
  closing : Bool
  /-- A closing has seen both loops end. -/
  joined : Bool
  stats : Stats
  /-- How often the transport, the failure handler and the backoff were asked. -/
  calls : Nat
  verdicts : Nat
  delays : Nat
  /-- What happened and when, the newest first. -/
  history : List (Nat × Event)
  deriving DecidableEq, Repr

namespace State

def record (s : State) (event : Event) : State :=
  { s with history := (s.now, event) :: s.history }

def start (setup : Setup) : State :=
  let options := setup.options
  let s : State :=
    { now := 0
      requests := []
      wait? := none
      closed? := none
      lineQueue := []
      flushAsked := false
      buffering :=
        { running := true
          buffer := .empty options.batchSize.toNat options.maxBatchBytes.toNat
          outbox := []
          handing? := none
          restart := false
          flushAt := setup.flushInterval
          formed := 0 }
      batchQueue := []
      retryQueue := []
      sending := .idle
      backlog := .empty options.retryBufferLimit.toNat
      closing := false
      joined := false
      stats := {}
      calls := 0
      verdicts := 0
      delays := 0
      history := [] }
  s.record (.started options.flushInterval.toNat setup.maxRetries)

/-- The client has nothing to do and waits for nothing. -/
def clientIdle (s : State) : Bool :=
  s.requests.isEmpty && s.wait?.isNone

/-- Somebody holds the barrier of the client's flush. -/
def barrierHeld (s : State) : Bool :=
  s.flushAsked || s.buffering.outbox.contains .barrier || s.buffering.handing? == some .barrier ||
    s.batchQueue.contains .barrier

/-- Puts a batch that the backlog hands back before the sending loop, if there is one. -/
def handBack (s : State) (batch : Batch) : State :=
  if s.sending.isOver then s.record (.backlog (.discarded batch))
  else { s with retryQueue := s.retryQueue ++ [batch] }.record (.backlog (.released batch))

/-- Hands back the batches that an operation of the backlog gave out. -/
def withBacklog (s : State) (outcome : Backlog × List Batch) : State :=
  outcome.2.foldl handBack { s with backlog := outcome.1 }

end State

/-- The most items that a queue can be made for. -/
def greatestCapacity : Nat := (Nat.pow 2 64 - 1) / 8

inductive StartFailure where
  | invalid (error : DeliveryError)
  | capacityTooLarge
  deriving DecidableEq, Repr

/-- Starts a writer, if its options are valid and its queues can be made. -/
def start? (setup : Setup) : Except StartFailure State :=
  match setup.options.check with
  | .error error => .error (.invalid error)
  | .ok () =>
    if greatestCapacity < setup.channelCapacity then .error .capacityTooLarge
    else .ok (.start setup)

end LineDelivery.Pipeline
