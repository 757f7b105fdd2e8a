import LineDelivery.Backoff

/-!
# What surrounds a writer

The transport, the failure handler and the backoff act on the writer only through their answers, so
each is given by its answers: the reply to the n-th call of the transport, the verdict of the n-th
call of the handler, and the n-th delay.
-/

namespace LineDelivery.Pipeline

inductive Reply where
  /-- Takes a while, then accepts the batch or fails with an error. -/
  | answer (delay : Nat) (error? : Option DeliveryError)
  /-- Takes a while, then breaks the sending loop. -/
  | crash (delay : Nat)
  deriving DecidableEq, Repr

namespace Reply

def delay : Reply → Nat
  | answer delay _ => delay
  | crash delay => delay

end Reply

structure Setup where
  options : Options
  reply : Nat → Reply
  /-- Whether the handler of failed attempts, if there is one, wants the batch tried again. -/
  verdict? : Option (Nat → DeliveryError → Bool)
  /-- The delay after so many failures of a batch, the last of them with this error. -/
  delay : Nat → DeliveryError → Nat → Nat

namespace Setup

def channelCapacity (setup : Setup) : Nat :=
  setup.options.channelCapacity.toNat

def flushInterval (setup : Setup) : Nat :=
  setup.options.duration .flushInterval

def maxRetryTime (setup : Setup) : Nat :=
  setup.options.duration .maxRetryTime

def maxRetries (setup : Setup) : Nat :=
  setup.options.maxRetries.toNat

/-- Whether a failed batch is to be tried again, as the handler says or else as the error says. -/
def wantsRetry (setup : Setup) (asked : Nat) (error : DeliveryError) : Bool :=
  match setup.verdict? with
  | some verdict => verdict asked error
  | none => error.deservesRetry

/-- Delays drawn by a backoff, in nanoseconds. -/
def drawn (backoff : Backoff) (draws : Nat → Backoff.Draw) : Nat → DeliveryError → Nat → Nat :=
  fun asked error failures ↦ Time.ofMillis (backoff.delay error failures (draws asked))

end Setup

end LineDelivery.Pipeline
