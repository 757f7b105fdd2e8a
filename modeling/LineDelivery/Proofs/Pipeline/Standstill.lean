import LineDelivery.Proofs.Pipeline.Authors
import LineDelivery.Proofs.Pipeline.Ending
import LineDelivery.Proofs.Pipeline.Work

/-!
# When the sending loop has ended

Only the sending loop calls the transport and the backoff and reports on batches, so all that is over
with it, whether it stopped or broke. No client hangs then: the buffering loop ends at its next
hand-over, a loop that has ended holds no barrier, and all that the client can still wait for is the
end of its own sleep.
-/

namespace LineDelivery.Pipeline

/-- The transport or the backoff was called, or a callback was told about a batch. -/
def Event.isDelivery : Event → Bool
  | called _ _ | backoffReset | delayed _ _ _ | backlog (.removed _ _) => true
  | reported _ _ attempt => 0 < attempt
  | _ => false

theorem Event.writers_of_isDelivery {event : Event} (isDelivery : event.isDelivery) :
    event.writers = [.sending] := by
  cases event with
  | backlog event => cases event <;> first | rfl | simp [Event.isDelivery] at isDelivery
  | reported error batch? attempt =>
    cases batch? with
    | none =>
      cases attempt with
      | zero => simp [Event.isDelivery] at isDelivery
      | succ attempt => rfl
    | some batch => rfl
  | _ => first | rfl | simp [Event.isDelivery] at isDelivery

namespace State

variable {setup : Setup} {s t u : State}

/-! ## What the other tasks leave alone -/

/-- Since the first state nobody was asked about a batch, and only what could not be encoded was
counted. -/
structure Standstill (s t : State) : Prop where
  events : ∃ since, t.events = since ++ s.events ∧ ∀ event ∈ since, event.isDelivery = false
  calls : t.calls = s.calls
  stats : t.stats = { s.stats with encodingFailures := t.stats.encodingFailures }

theorem Standstill.refl (s : State) : Standstill s s :=
  ⟨⟨[], rfl, by simp⟩, rfl, rfl⟩

theorem Standstill.trans (earlier : Standstill s t) (later : Standstill t u) : Standstill s u := by
  obtain ⟨⟨first, eventsFirst, quietFirst⟩, callsFirst, statsFirst⟩ := earlier
  obtain ⟨⟨second, eventsSecond, quietSecond⟩, callsSecond, statsSecond⟩ := later
  refine ⟨⟨second ++ first, ?_, ?_⟩, callsSecond.trans callsFirst, ?_⟩
  · rw [eventsSecond, eventsFirst, List.append_assoc]
  · exact List.forall_mem_append.mpr ⟨quietSecond, quietFirst⟩
  · rw [statsSecond, statsFirst]

theorem Writes.standstill {task : Task} (other : task ≠ .sending) (writes : Writes task s t)
    (calls : t.calls = s.calls)
    (stats : t.stats = { s.stats with encodingFailures := t.stats.encodingFailures }) :
    Standstill s t := by
  obtain ⟨block, history, own⟩ := writes
  refine ⟨⟨block, events_of_history history, fun event there ↦ ?_⟩, calls, stats⟩
  cases isDelivery : event.isDelivery with
  | false => rfl
  | true =>
    have writer := own event there
    rw [Event.writers_of_isDelivery isDelivery, List.mem_singleton] at writer
    exact absurd writer other

/-- What the sending loop works with, but for the queues that the others fill. -/
theorem sendingSide_of_step? {task : Task} (other : task ≠ .sending)
    (taken : s.step? setup task = some t) : t.sending = s.sending ∧ t.calls = s.calls ∧
      t.stats = { s.stats with encodingFailures := t.stats.encodingFailures } := by
  cases task with
  | buffering =>
    cases action_of_buffering? taken with
    | @beginHandOver next => cases next <;> exact ⟨rfl, rfl, rfl⟩
    | gather => rw [gather_eq]; exact ⟨rfl, rfl, rfl⟩
    | flushBuffer => rw [flushBuffer_eq]; exact ⟨rfl, rfl, rfl⟩
    | flushOnRequest => rw [flushOnRequest, flushBuffer_eq]; exact ⟨rfl, rfl, rfl⟩
    | _ => exact ⟨rfl, rfl, rfl⟩
  | alarm =>
    obtain ⟨_, rfl⟩ := fire_of_alarm? taken
    rw [withBacklog_eq]
    exact ⟨rfl, rfl, rfl⟩
  | sending => exact absurd rfl other
  | client =>
    cases action_of_client? taken with
    | @endWait wait =>
      cases wait with
      | bothLoops residual => rw [endWait_bothLoops]; exact ⟨rfl, rfl, rfl⟩
      | _ => exact ⟨rfl, rfl, rfl⟩
    | serve free asked served =>
      cases served with
      | flushStopped | flush => rw [withBacklog_eq]; exact ⟨rfl, rfl, rfl⟩
      | _ => exact ⟨rfl, rfl, rfl⟩

/-- An ended sending loop stays as it is, and so does all that only it does. -/
theorem standstill_of_runs (isOver : s.sending.isOver) (run : Runs setup s t) :
    t.sending = s.sending ∧ Standstill s t := by
  induction run with
  | refl => exact ⟨rfl, .refl s⟩
  | @tail t u _ move ih =>
    obtain ⟨same, still⟩ := ih
    cases move with
    | step task taken =>
      have other : task ≠ .sending := by
        rintro rfl
        simp [step?, sending?_eq_none (same ▸ isOver)] at taken
      obtain ⟨sending, calls, stats⟩ := sendingSide_of_step? other taken
      exact ⟨sending.trans same, still.trans ((writes_of_step? taken).standstill other calls stats)⟩
    | pass now later => exact ⟨same, { still with }⟩
    | ask requests idle => exact ⟨same, { still with }⟩

/-! ## What ended loops hold -/

/-- A loop that has ended holds nothing, and nothing waits for it. -/
structure Emptied (s : State) : Prop where
  buffering : s.buffering.running = false → s.lineQueue = [] ∧ s.flushAsked = false ∧
    s.buffering.outbox = [] ∧ s.buffering.handing? = none
  sending : s.sending.isOver → s.batchQueue = []

theorem Emptied.buffering? (emptied : s.Emptied) (taken : s.buffering? setup = some t) :
    t.Emptied := by
  have running := running_of_buffering? taken
  cases action_of_buffering? taken with
  | stop => exact ⟨fun _ ↦ ⟨rfl, rfl, rfl, rfl⟩, emptied.sending⟩
  | enqueue opened handing alive =>
    refine ⟨?_, ?_⟩
    · simp [enqueue, running]
    · simp [enqueue, alive]
  | @beginHandOver next =>
    cases next <;> exact ⟨by simp [beginHandOver, record, running], emptied.sending⟩
  | gather => rw [gather_eq]; exact ⟨by simp [running], emptied.sending⟩
  | flushBuffer => rw [flushBuffer_eq]; exact ⟨by simp [running], emptied.sending⟩
  | flushOnRequest =>
    rw [flushOnRequest, flushBuffer_eq]
    exact ⟨by simp [running], emptied.sending⟩
  | restartTimer => exact ⟨by simp [restartTimer, running], emptied.sending⟩

theorem Emptied.takenUp {batch : Batch} (idle : s.sending = .idle)
    (taken : TakenUp setup s batch t) : t.sending.isOver → t.batchQueue = [] := by
  cases taken with
  | expired => simp [idle, Sending.isOver]
  | called => simp [Sending.isOver]

theorem Emptied.sending? (emptied : s.Emptied) (taken : s.sending? setup = some t) :
    t.Emptied := by
  have front := front_of_sending? taken
  have buffering : t.buffering = s.buffering := congrArg Front.buffering front
  have lines : t.lineQueue = s.lineQueue := congrArg Front.lineQueue front
  have asked : t.flushAsked = s.flushAsked := congrArg Front.flushAsked front
  refine ⟨buffering ▸ lines ▸ asked ▸ emptied.buffering, ?_⟩
  cases action_of_sending? taken with
  | stop => simp [stopSending, record]
  | again idle opened retries taken => exact takenUp (by exact idle) taken
  | fresh idle opened noRetry parcels taken => exact takenUp (by exact idle) taken
  | barrier idle => simp [idle, Sending.isOver]
  | endCall busy isOver ended => cases ended <;> simp [Sending.isOver]

theorem Emptied.client? (emptied : s.Emptied) (taken : s.client? setup = some t) : t.Emptied := by
  cases action_of_client? taken with
  | @endWait wait =>
    cases wait with
    | bothLoops residual => rw [endWait_bothLoops]; exact ⟨emptied.buffering, emptied.sending⟩
    | _ => exact ⟨emptied.buffering, emptied.sending⟩
  | serve free asked served =>
    cases served with
    | accepted filled opened running =>
      exact ⟨fun stopped ↦ absurd (running.symm.trans stopped) (by simp), emptied.sending⟩
    | flushStopped => rw [withBacklog_eq]; exact ⟨emptied.buffering, emptied.sending⟩
    | flush opened running =>
      rw [withBacklog_eq]
      exact ⟨fun stopped ↦ absurd (running.symm.trans stopped) (by simp), emptied.sending⟩
    | _ => exact ⟨emptied.buffering, emptied.sending⟩

theorem Emptied.step? (emptied : s.Emptied) {task : Task} (taken : s.step? setup task = some t) :
    t.Emptied := by
  cases task with
  | buffering => exact emptied.buffering? taken
  | alarm =>
    obtain ⟨_, rfl⟩ := fire_of_alarm? taken
    rw [withBacklog_eq]
    exact ⟨emptied.buffering, emptied.sending⟩
  | sending => exact emptied.sending? taken
  | client => exact emptied.client? taken

end State

theorem Reachable.emptied {setup : Setup} {s : State} (reachable : Reachable setup s) :
    s.Emptied := by
  induction reachable with
  | start started =>
    rw [(start?_eq_ok started).2]
    constructor <;> simp [State.start, State.record]
  | move _ move ih =>
    cases move with
    | step task taken => exact ih.step? taken
    | pass now later => exact ⟨ih.buffering, ih.sending⟩
    | ask requests idle => exact ⟨ih.buffering, ih.sending⟩

/-! ## No client hangs -/

namespace State

variable {setup : Setup} {s : State}

/-- The client waits for nothing but the end of its own sleep. -/
def Unblocked (s : State) : Prop :=
  s.clientIdle ∨ ∃ time, s.wait? = some (.instant time) ∧ s.now < time

/-- When the sending loop has ended, the buffering loop comes to rest holding no barrier and no
line, and if the writer is closing it comes to its end. -/
theorem free_of_buffering?_eq_none (emptied : s.Emptied) (capacity : 0 < setup.channelCapacity)
    (isOver : s.sending.isOver) (quiet : s.buffering? setup = none) :
    s.barrierHeld = false ∧ s.lineQueue = [] ∧ (s.closing → s.buffering.running = false) := by
  have parcels := emptied.sending isOver
  cases running : s.buffering.running with
  | false =>
    obtain ⟨lines, asked, outbox, handing⟩ := emptied.buffering running
    simp [barrierHeld, lines, asked, outbox, handing, parcels]
  | true =>
    have opened : s.closing = false := by
      cases closing : s.closing with
      | false => rfl
      | true => simp [State.buffering?, running, closing] at quiet
    obtain ⟨handing, outbox, lines, asked⟩ :=
      buffering_of_buffering?_eq_none opened running capacity parcels quiet
    simp [barrierHeld, lines, asked, outbox, handing, parcels, opened]

end State

namespace Reachable

variable {setup : Setup} {s : State}

theorem unblocked_of_quiescent (reachable : Reachable setup s) (isOver : s.sending.isOver)
    (quiescent : s.Quiescent setup) : s.Unblocked := by
  have capacity := reachable.channelCapacity_pos
  obtain ⟨passed, lines, stopped⟩ :=
    State.free_of_buffering?_eq_none reachable.emptied capacity isOver (quiescent .buffering)
  refine State.client_of_client?_eq_none (by simpa [lines] using capacity) passed ?_
    (quiescent .client)
  intro residual waits
  have closing := reachable.standing.bothLoops residual waits
  simp [State.waitIsOver, stopped closing, isOver]

/-- Once the sending loop has ended, no call of the client waits on time, whatever the client and the
tasks do. -/
theorem unblocked (reachable : Reachable setup s) (isOver : s.sending.isOver) :
    AtOnce setup State.Unblocked s := by
  refine reachable.atOnce fun t turns quiescent ↦ ?_
  have sending := (State.standstill_of_runs isOver turns.runs).1
  exact (reachable.runs turns.runs).unblocked_of_quiescent (sending ▸ isOver) quiescent

end Reachable

end LineDelivery.Pipeline
