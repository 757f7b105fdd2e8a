import LineDelivery.Options

/-!
# Backoff

How long to wait before the next attempt. After `n` failures the delay is drawn from the half-open
range between `interval * base ^ n` and `interval * base ^ (n + 1)`, cut at a maximum, and a jitter
is added. Where that range is empty or its end is no 64-bit word, the delay is the maximum itself. A
server that asked for a pause gets exactly that pause. Delays are milliseconds.
-/

namespace LineDelivery

structure Backoff where
  interval : Nat
  base : Nat
  maxInterval : Nat
  jitter : Nat
  /-- The latest delay, zero after a success. -/
  current : Nat := 0
  deriving DecidableEq, Repr

namespace Backoff

/-- Durations are held in whole milliseconds. -/
def ofDurations (interval : Nat) (base : Nat) (maxInterval jitter : Nat) : Backoff :=
  { interval := Time.toMillisWord interval
    base
    maxInterval := Time.toMillisWord maxInterval
    jitter := Time.toMillisWord jitter }

def ofOptions (options : Options) : Backoff :=
  { interval := options.retryInterval.toNat
    base := options.exponentialBase.toNat
    maxInterval := options.maxRetryInterval.toNat
    jitter := options.retryJitter.toNat }

/-- The range of the delay after so many failures. From a base of two on, the end of the range is
no word after 63 failures. -/
def range? (backoff : Backoff) (failures : Nat) : Option (Nat × Nat) :=
  if backoff.base ≤ 1 ∨ backoff.interval = 0 ∨ 63 ≤ failures then none
  else
    let low := backoff.interval * backoff.base.pow failures
    let high := low * backoff.base
    if high ≤ Time.maxWord then some (low, high) else none

/-- Two numbers drawn at random, one for the delay and one for the jitter. -/
structure Draw where
  delay : Nat
  jitter : Nat

/-- The delay after so many failures, the last of them with this error. -/
def delay (backoff : Backoff) (error : DeliveryError) (failures : Nat) (draw : Draw) : Nat :=
  match error.pause? with
  | some seconds => min (1000 * seconds) Time.maxWord
  | none =>
    match backoff.range? failures with
    | none => backoff.maxInterval
    | some (low, high) =>
      let drawn := min (low + draw.delay % (high - low)) backoff.maxInterval
      min (drawn + draw.jitter % max backoff.jitter 1) Time.maxWord

/-- The least and the greatest delay that can be drawn; every delay between them can be. -/
def bounds (backoff : Backoff) (error : DeliveryError) (failures : Nat) : Nat × Nat :=
  match error.pause? with
  | some seconds => (min (1000 * seconds) Time.maxWord, min (1000 * seconds) Time.maxWord)
  | none =>
    match backoff.range? failures with
    | none => (backoff.maxInterval, backoff.maxInterval)
    | some (low, high) =>
      (min low backoff.maxInterval,
        min (min (high - 1) backoff.maxInterval + (max backoff.jitter 1 - 1)) Time.maxWord)

/-- Draws the next delay and remembers it. -/
def next (backoff : Backoff) (error : DeliveryError) (failures : Nat) (draw : Draw) :
    Nat × Backoff :=
  let delay := backoff.delay error failures draw
  (delay, { backoff with current := delay })

def success (backoff : Backoff) : Backoff :=
  { backoff with current := 0 }

end Backoff

end LineDelivery
