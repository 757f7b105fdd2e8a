/-!
# Time

Instants and durations are natural numbers of nanoseconds, an instant counted from the start of the
clock. The clock itself shows whole milliseconds only, so waiting for an instant ends at the first
whole millisecond that is not before it.
-/

namespace LineDelivery.Time

def nanosPerMilli : Nat := 1000000

def nanosPerSecond : Nat := 1000000000

def ofMillis (millis : Nat) : Nat :=
  millis * nanosPerMilli

/-- Whole milliseconds, rounded down. -/
def toMillis (time : Nat) : Nat :=
  time / nanosPerMilli

/-- The largest value of an unsigned word of 64 bits. -/
def maxWord : Nat := Nat.pow 2 64 - 1

/-- Whole milliseconds, rounded down and held at the largest word. -/
def toMillisWord (time : Nat) : Nat :=
  min (toMillis time) maxWord

/-- The clock counts signed 64-bit seconds; it has no instant from here on. -/
def horizon : Nat := Nat.pow 2 63 * nanosPerSecond

/-- Thirty years of 365 days. -/
def farAhead : Nat := 30 * 365 * 24 * 60 * 60 * nanosPerSecond

/-- The instant a duration from now, or thirty years from now if the clock has no such instant. -/
def deadline (now : Nat) (after : Nat) : Nat :=
  if now + after < horizon then now + after else now + farAhead

theorem le_deadline (now after : Nat) : now ≤ deadline now after := by
  unfold deadline
  split <;> omega

theorem lt_deadline {now after : Nat} (later : 0 < after) : now < deadline now after := by
  have ahead : 0 < farAhead := by decide
  unfold deadline
  split <;> omega

theorem deadline_eq {now after : Nat} (representable : now + after < horizon) :
    deadline now after = now + after :=
  if_pos representable

/-- The first whole millisecond that is not before an instant. -/
def wakeUp (time : Nat) : Nat :=
  (time + (nanosPerMilli - 1)) / nanosPerMilli * nanosPerMilli

theorem le_wakeUp (time : Nat) : time ≤ wakeUp time := by
  unfold wakeUp nanosPerMilli
  omega

theorem dvd_wakeUp (time : Nat) : nanosPerMilli ∣ wakeUp time :=
  Nat.dvd_mul_left _ _

/-- Whole milliseconds are not passed over. -/
theorem wakeUp_le {time instant : Nat} (whole : nanosPerMilli ∣ instant) (early : time ≤ instant) :
    wakeUp time ≤ instant := by
  unfold wakeUp nanosPerMilli at *
  omega

/-- The clock shows whole milliseconds without delay. -/
theorem wakeUp_eq {time : Nat} (whole : nanosPerMilli ∣ time) : wakeUp time = time :=
  Nat.le_antisymm (wakeUp_le whole (Nat.le_refl time)) (le_wakeUp time)

/-- From a whole millisecond on, the next instant to wake up at is the next whole one. -/
theorem add_le_wakeUp {time instant : Nat} (whole : nanosPerMilli ∣ instant)
    (late : instant < time) : instant + nanosPerMilli ≤ wakeUp time := by
  unfold wakeUp nanosPerMilli at *
  omega

end LineDelivery.Time
