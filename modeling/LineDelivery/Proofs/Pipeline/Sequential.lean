import LineDelivery.Proofs.LineBuffer.TimedBuffer
import LineDelivery.Proofs.Pipeline.Clocked

/-!
# Calls on a buffer with a clock

What a client asks of a writer, asked of one buffer with a clock. A chunk is added, a flush flushes,
and time passes while the client sleeps. Where something is asked for at the very instant at which
the timer is due, the timer goes off before it or after it, so the same calls can come to different
batches.
-/

namespace LineDelivery

namespace Pipeline

namespace Request

/-- When a request that is made now has been served: only a sleep takes time. -/
def returnsAt (now : Nat) : Request → Nat
  | sleep duration => Time.wakeUp (Time.deadline now duration)
  | _ => now

theorem le_returnsAt (request : Request) (now : Nat) : now ≤ request.returnsAt now := by
  cases request with
  | sleep duration => exact (Time.le_deadline _ _).trans (Time.le_wakeUp _)
  | _ => exact le_rfl

theorem le_foldl_returnsAt (requests : List Request) (now : Nat) :
    now ≤ requests.foldl returnsAt now := by
  induction requests generalizing now with
  | nil => exact le_rfl
  | cons request requests ih => exact (request.le_returnsAt now).trans (ih _)

end Request

namespace ClientCall

/-- When a call that begins now has returned: only a sleep takes time. -/
def returnsAt (now : Nat) : ClientCall → Nat
  | sleep duration => Time.wakeUp (Time.deadline now duration)
  | _ => now

theorem returnsAt_eq (call : ClientCall) (now : Nat) :
    call.returnsAt now = call.requests.foldl Request.returnsAt now := by
  cases call with
  | writeAll records =>
    induction records with
    | nil => rfl
    | cons record records ih =>
      have atOnce : (Request.ofEncoded record).returnsAt now = now := by
        unfold Request.ofEncoded
        split <;> rfl
      simpa [returnsAt, requests, atOnce] using ih
  | sleep duration => rw [requests, List.foldl_cons, List.foldl_nil, returnsAt, Request.returnsAt]
  | _ => rfl

end ClientCall

/-- The instant at which calls have returned that a client begins at the start of the clock. -/
def endOf (calls : List ClientCall) : Nat :=
  calls.foldl ClientCall.returnsAt 0

theorem endOf_eq (calls : List ClientCall) :
    endOf calls = (calls.flatMap ClientCall.requests).foldl Request.returnsAt 0 := by
  rw [endOf, List.foldl_flatMap]
  congr 1
  funext now call
  exact call.returnsAt_eq now

theorem endOf_le {called calls : List ClientCall} (first : called <+: calls) :
    endOf called ≤ endOf calls := by
  obtain ⟨rest, rfl⟩ := first
  rw [endOf_eq, endOf_eq, List.flatMap_append, List.foldl_append]
  exact Request.le_foldl_returnsAt _ _

end Pipeline

namespace TimedBuffer

open Pipeline

def serve (timed : TimedBuffer) : Request → TimedBuffer
  | .line chunk => timed.add chunk
  | .unencodable _ => timed
  | .flush => timed.flush
  | .close => timed
  | .giveUp => timed
  | .sleep duration => timed.passTo (Time.wakeUp (Time.deadline timed.now duration))

/-- What may have become of a buffer of which so much was asked. -/
inductive Becomes (start : TimedBuffer) : List Request → TimedBuffer → Prop
  | start : Becomes start [] start
  | serve {asked : List Request} {timed : TimedBuffer} (before : Becomes start asked timed)
      (request : Request) : Becomes start (asked ++ [request]) (timed.serve request)
  /-- The timer goes off at the instant at which it is due. -/
  | expire {asked : List Request} {timed : TimedBuffer} (before : Becomes start asked timed)
      (due : timed.flushAt = timed.now) : Becomes start asked timed.flush

/-- What a buffer may have sent, and when, once these calls have returned and its timer is not due
any more. -/
def Sends (timed : TimedBuffer) (calls : List ClientCall) (sent : List (Nat × Bytes)) : Prop :=
  ∃ final, timed.Becomes (calls.flatMap ClientCall.requests) final ∧ final.now < final.flushAt ∧
    final.sent = sent

theorem now_serve (timed : TimedBuffer) (request : Request) :
    (timed.serve request).now = request.returnsAt timed.now := by
  cases request with
  | sleep duration => exact now_passTo
  | _ => rfl

theorem Becomes.now_eq {start timed : TimedBuffer} {asked : List Request}
    (becomes : start.Becomes asked timed) :
    timed.now = asked.foldl Request.returnsAt start.now := by
  induction becomes with
  | start => rfl
  | serve before request ih =>
    rw [now_serve, ih, List.foldl_append, List.foldl_cons, List.foldl_nil]
  | expire before due ih => exact now_flush.trans ih

/-! ## Where the order at an instant makes a difference -/

/-- No chunk is written at an instant at which the timer has still to go off. -/
def Untied (start : TimedBuffer) (requests : List Request) : Prop :=
  ∀ asked chunk, asked ++ [.line chunk] <+: requests →
    (asked.foldl serve start).flushAt ≠ (asked.foldl serve start).now

/-- A flush, or any time that passes, makes up for a timer that has not gone off yet. -/
theorem serve_flush {timed : TimedBuffer} (due : timed.flushAt = timed.now) {request : Request}
    (unwritten : ∀ chunk, request ≠ .line chunk) :
    timed.flush.serve request = timed.serve request ∨
      (timed.serve request).flushAt = (timed.serve request).now ∧
        timed.flush.serve request = (timed.serve request).flush := by
  cases request with
  | line chunk => exact absurd rfl (unwritten chunk)
  | unencodable | close | giveUp => exact .inr ⟨due, rfl⟩
  | flush => exact .inl flush_flush
  | sleep duration =>
    simp only [serve, now_flush]
    generalize wakes : Time.wakeUp (Time.deadline timed.now duration) = instant
    have later : timed.now ≤ instant := wakes ▸ (Time.le_deadline _ _).trans (Time.le_wakeUp _)
    rcases later.lt_or_eq with later | now
    · exact .inl (passTo_of_flushAt_eq due later).symm
    · have asItIs : timed.passTo instant = timed := passTo_of_now now (now.ge.trans due.ge)
      have flushed : timed.flush.passTo instant = timed.flush :=
        passTo_of_now now (now ▸ now_lt_flushAt_flush.le)
      rw [asItIs, flushed]
      exact .inr ⟨due, rfl⟩

theorem Becomes.eq_or_flush {start timed : TimedBuffer} {asked : List Request}
    (becomes : start.Becomes asked timed) (untied : start.Untied asked) :
    let late := asked.foldl TimedBuffer.serve start
    timed = late ∨ late.flushAt = late.now ∧ timed = late.flush := by
  induction becomes with
  | start => exact .inl rfl
  | @serve asked timed before request ih =>
    have earlier : start.Untied asked := fun first chunk ahead ↦
      untied first chunk (ahead.trans (List.prefix_append _ _))
    simp only [List.foldl_append, List.foldl_cons, List.foldl_nil]
    rcases ih earlier with rfl | ⟨due, rfl⟩
    · exact .inl rfl
    · exact serve_flush due fun chunk writes ↦ untied asked chunk (writes ▸ List.prefix_rfl) due
  | expire before due ih =>
    rcases ih untied with rfl | ⟨_, rfl⟩
    · exact .inr ⟨due, rfl⟩
    · exact absurd due now_lt_flushAt_flush.ne'

/-- Where no chunk is written at such an instant, there is one outcome only. -/
theorem Sends.unique {timed : TimedBuffer} {calls : List ClientCall}
    {sent other : List (Nat × Bytes)} (sends : timed.Sends calls sent)
    (sendsOther : timed.Sends calls other)
    (untied : timed.Untied (calls.flatMap ClientCall.requests)) : sent = other := by
  obtain ⟨first, becomes, early, rfl⟩ := sends
  obtain ⟨second, becomesOther, earlyOther, rfl⟩ := sendsOther
  rcases becomes.eq_or_flush untied with rfl | ⟨due, rfl⟩ <;>
    rcases becomesOther.eq_or_flush untied with rfl | ⟨dueOther, rfl⟩
  · rfl
  · exact absurd dueOther early.ne'
  · exact absurd due earlyOther.ne'
  · rfl

end TimedBuffer

end LineDelivery
