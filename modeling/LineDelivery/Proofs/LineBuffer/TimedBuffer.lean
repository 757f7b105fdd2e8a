import LineDelivery.Proofs.LineBuffer.Contents

/-!
# A line buffer with a clock

One buffer, one clock and one flush timer, and nothing else: a batch is sent at the instant at which
it is cut. The timer starts anew when it goes off, also if it finds the buffer empty, and when the
buffer is flushed on request. It goes off at the instant at which it is due, before or after what
else falls on that instant. This is all that a writer is to a transport that takes no time and whose
failures are final.
-/

namespace LineDelivery

structure TimedBuffer where
  now : Nat
  buffer : LineBuffer
  interval : Nat
  positive : 0 < interval
  /-- When the timer goes off next. -/
  flushAt : Nat
  /-- What was sent and when, the oldest first. -/
  sent : List (Nat × Bytes)
  deriving DecidableEq, Repr

namespace TimedBuffer

def start (maxLines maxBytes interval : Nat) (positive : 0 < interval) : TimedBuffer where
  now := 0
  buffer := .empty maxLines maxBytes
  interval := interval
  positive := positive
  flushAt := interval
  sent := []

/-- Sends batches now. -/
def send (timed : TimedBuffer) (cuts : List LineBuffer.Cut) : TimedBuffer :=
  { timed with sent := timed.sent ++ cuts.map fun cut ↦ (timed.now, cut.lines) }

def add (timed : TimedBuffer) (chunk : Bytes) : TimedBuffer :=
  let (cuts, buffer) := timed.buffer.add chunk
  { timed with buffer }.send cuts

/-- Sends all that is held, and starts the timer anew. -/
def flush (timed : TimedBuffer) : TimedBuffer :=
  let (cut?, buffer) := timed.buffer.flush
  { timed with buffer, flushAt := timed.now + timed.interval }.send cut?.toList

/-- Lets time pass until the timer is due, and then it goes off. -/
def expire (timed : TimedBuffer) : TimedBuffer :=
  { timed with now := timed.flushAt }.flush

/-- Lets time pass up to an instant. The timer goes off each time that it is due on the way, and has
still to go off if it is due at the end. -/
def passTo (timed : TimedBuffer) (instant : Nat) : TimedBuffer :=
  if timed.flushAt < instant then timed.expire.passTo instant else { timed with now := instant }
termination_by instant - timed.flushAt
decreasing_by
  have := timed.positive
  simp only [expire, flush, send]
  omega

variable {timed : TimedBuffer} {chunk : Bytes} {instant : Nat}

@[simp]
theorem now_add : (timed.add chunk).now = timed.now := rfl

@[simp]
theorem flushAt_add : (timed.add chunk).flushAt = timed.flushAt := rfl

@[simp]
theorem now_flush : timed.flush.now = timed.now := rfl

@[simp]
theorem flushAt_flush : timed.flush.flushAt = timed.now + timed.interval := rfl

/-- A timer that has just been started is not due. -/
theorem now_lt_flushAt_flush : timed.flush.now < timed.flush.flushAt :=
  Nat.lt_add_of_pos_right timed.positive

@[simp]
theorem add_nil : timed.add [] = timed := by
  simp [add, send, LineBuffer.add]

@[simp]
theorem now_foldl_add {chunks : List Bytes} : (chunks.foldl add timed).now = timed.now := by
  induction chunks generalizing timed with
  | nil => rfl
  | cons chunk chunks ih => exact ih

@[simp]
theorem flushAt_foldl_add {chunks : List Bytes} :
    (chunks.foldl add timed).flushAt = timed.flushAt := by
  induction chunks generalizing timed with
  | nil => rfl
  | cons chunk chunks ih => exact ih

/-- A flush right after a flush changes nothing. -/
@[simp]
theorem flush_flush : timed.flush.flush = timed.flush := by
  have empty := LineBuffer.flush_of_isEmpty timed.buffer.isEmpty_flush
  simp [flush, send, empty]

theorem passTo_of_due (due : timed.flushAt < instant) :
    timed.passTo instant = timed.expire.passTo instant := by
  rw [passTo, if_pos due]

theorem passTo_of_early (early : instant ≤ timed.flushAt) :
    timed.passTo instant = { timed with now := instant } := by
  rw [passTo, if_neg (Nat.not_lt.mpr early)]

/-- As long as no time passes, the timer need not go off. -/
theorem passTo_of_now (now : timed.now = instant) (early : instant ≤ timed.flushAt) :
    timed.passTo instant = timed := by
  rw [passTo_of_early early, ← now]

/-- A timer that is due goes off before time passes. -/
theorem passTo_of_flushAt_eq (due : timed.flushAt = timed.now) (later : timed.now < instant) :
    timed.passTo instant = timed.flush.passTo instant := by
  have atOnce : timed.expire = timed.flush := by simp only [expire, flush, send, due]
  rw [passTo_of_due (due ▸ later), atOnce]

@[simp]
theorem now_passTo : (timed.passTo instant).now = instant := by
  fun_induction passTo timed instant with
  | case1 timed due ih => exact ih
  | case2 => rfl

/-- Time that has passed without the timer going off makes no difference in the end. -/
theorem passTo_of_pass (now : Nat) :
    { timed with now }.passTo instant = timed.passTo instant := by
  by_cases due : timed.flushAt < instant
  · rw [passTo_of_due due, passTo_of_due (by exact due)]
    rfl
  · rw [passTo_of_early (by simpa using due), passTo_of_early (by simpa using due)]

end TimedBuffer

end LineDelivery
