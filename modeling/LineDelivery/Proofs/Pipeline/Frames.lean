import LineDelivery.Proofs.Pipeline.Actions

/-!
# What the tasks leave alone

The sending loop and the alarm work at the rear of a writer: they change nothing that the client or
the buffering loop holds, except that the sending loop takes from the batch queue. The buffering loop
in turn changes nothing at the rear, except that it puts something into that queue.
-/

namespace LineDelivery.Pipeline

/-- What the client and the buffering loop hold. -/
structure Front where
  requests : List Request
  wait? : Option Wait
  closed? : Option (Stats × Nat)
  lineQueue : List Bytes
  flushAsked : Bool
  buffering : Buffering
  closing : Bool
  joined : Bool

/-- What the buffering loop only looks at. -/
structure Rear where
  requests : List Request
  wait? : Option Wait
  closed? : Option (Stats × Nat)
  retryQueue : List Batch
  sending : Sending
  backlog : Backlog
  closing : Bool
  joined : Bool

namespace State

variable {setup : Setup} {s t : State}

def front (s : State) : Front where
  requests := s.requests
  wait? := s.wait?
  closed? := s.closed?
  lineQueue := s.lineQueue
  flushAsked := s.flushAsked
  buffering := s.buffering
  closing := s.closing
  joined := s.joined

def rear (s : State) : Rear where
  requests := s.requests
  wait? := s.wait?
  closed? := s.closed?
  retryQueue := s.retryQueue
  sending := s.sending
  backlog := s.backlog
  closing := s.closing
  joined := s.joined

theorem front_withBacklog (s : State) (outcome : Backlog × List Batch) :
    (s.withBacklog outcome).front = s.front := by
  rw [withBacklog_eq]
  rfl

theorem front_of_alarm? (taken : s.alarm? = some t) : t.front = s.front := by
  obtain ⟨_, rfl⟩ := fire_of_alarm? taken
  exact front_withBacklog s _

theorem front_of_sending? (taken : s.sending? setup = some t) : t.front = s.front := by
  cases action_of_sending? taken with
  | stop => rfl
  | again idle opened retries taken => cases taken <;> rfl
  | fresh idle opened noRetry parcels taken => cases taken <;> rfl
  | barrier => rfl
  | endCall busy isOver ended => cases ended <;> rfl

theorem rear_of_buffering? (taken : s.buffering? setup = some t) : t.rear = s.rear := by
  cases action_of_buffering? taken with
  | @beginHandOver next rest opened free outbox => cases next <;> rfl
  | gather => rw [gather_eq]; rfl
  | flushBuffer => rw [flushBuffer_eq]; rfl
  | flushOnRequest => rw [flushOnRequest, flushBuffer_eq]; rfl
  | _ => rfl

/-- Only the client's task comes upon chunks that cannot be encoded, and no task moves the clock. -/
theorem clock_of_step? {task : Task} (other : task ≠ .client) (taken : s.step? setup task = some t) :
    t.now = s.now ∧ t.stats.encodingFailures = s.stats.encodingFailures := by
  cases task with
  | buffering =>
    cases action_of_buffering? taken with
    | @beginHandOver next => cases next <;> exact ⟨rfl, rfl⟩
    | gather => rw [gather_eq]; exact ⟨rfl, rfl⟩
    | flushBuffer => rw [flushBuffer_eq]; exact ⟨rfl, rfl⟩
    | flushOnRequest => rw [flushOnRequest, flushBuffer_eq]; exact ⟨rfl, rfl⟩
    | _ => exact ⟨rfl, rfl⟩
  | alarm =>
    obtain ⟨_, rfl⟩ := fire_of_alarm? taken
    rw [withBacklog_eq]
    exact ⟨rfl, rfl⟩
  | sending =>
    cases action_of_sending? taken with
    | again idle opened retries taken => cases taken <;> exact ⟨rfl, rfl⟩
    | fresh idle opened noRetry parcels taken => cases taken <;> exact ⟨rfl, rfl⟩
    | endCall busy isOver ended => cases ended <;> exact ⟨rfl, rfl⟩
    | _ => exact ⟨rfl, rfl⟩
  | client => exact absurd rfl other

theorem now_of_client? (taken : s.client? setup = some t) : t.now = s.now := by
  cases action_of_client? taken with
  | @endWait wait =>
    cases wait with
    | bothLoops residual => rw [endWait_bothLoops]
    | _ => rfl
  | serve free asked served =>
    cases served with
    | flushStopped | flush => rw [withBacklog_eq]; rfl
    | _ => rfl

theorem now_of_step? {task : Task} (taken : s.step? setup task = some t) : t.now = s.now := by
  cases task with
  | client => exact now_of_client? taken
  | _ => exact (clock_of_step? (by decide) taken).1

end State

end LineDelivery.Pipeline
