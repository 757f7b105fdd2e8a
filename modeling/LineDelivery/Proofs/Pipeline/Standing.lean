import LineDelivery.Proofs.Backlog.Alarm
import LineDelivery.Proofs.Pipeline.Accounts
import LineDelivery.Proofs.Pipeline.Bookkeeping
import LineDelivery.Proofs.Pipeline.Frames
import LineDelivery.Proofs.Pipeline.Moves

/-!
# What every state of a writer satisfies

Nothing empty is queued, the backlog is sound, and the client waits for both loops only when it has
closed the writer and for a barrier only when it has not. With this, every run of a writer is a run
of its ledger.
-/

namespace LineDelivery.Pipeline

namespace State

variable {setup : Setup} {s t : State}

structure Standing (s : State) : Prop extends s.Filled where
  backlog : s.backlog.Sound
  bothLoops : ∀ residual, s.wait? = some (.bothLoops residual) → s.closing
  barrier : s.wait? = some .barrier → s.closing = false

/-! ## The buffering loop -/

theorem Filled.buffering? (filled : s.Filled) (taken : s.buffering? setup = some t) :
    t.Filled := by
  cases action_of_buffering? taken with
  | stop => constructor <;> simp [stopBuffering, record]
  | enqueue => exact ⟨filled.lines, filled.cuts⟩
  | @beginHandOver next rest opened free outbox =>
    have fewer : ∀ cut, .cut cut ∈ rest → cut.chunks ≠ [] :=
      fun cut there ↦ filled.cuts cut (by simp [outbox, there])
    cases next <;> exact ⟨filled.lines, fewer⟩
  | restartTimer => exact ⟨filled.lines, filled.cuts⟩
  | @gather chunk rest free started queue =>
    rw [gather_eq]
    constructor
    · exact fun other there ↦ filled.lines other (by simp [queue, there])
    · exact fun cut there ↦ LineBuffer.filled_of_mem_add (by simpa using there)
  | flushBuffer =>
    rw [flushBuffer_eq]
    exact ⟨filled.lines, fun cut there ↦ LineBuffer.filled_of_mem_flush (by simpa using there)⟩
  | flushOnRequest =>
    rw [flushOnRequest, flushBuffer_eq]
    exact ⟨filled.lines, fun cut there ↦ LineBuffer.filled_of_mem_flush (by simpa using there)⟩

theorem Standing.buffering? (standing : s.Standing) (taken : s.buffering? setup = some t) :
    t.Standing := by
  have rear := rear_of_buffering? taken
  have backlog : t.backlog = s.backlog := congrArg Rear.backlog rear
  have wait : t.wait? = s.wait? := congrArg Rear.wait? rear
  have closing : t.closing = s.closing := congrArg Rear.closing rear
  exact
    { standing.toFilled.buffering? taken with
      backlog := backlog ▸ standing.backlog
      bothLoops := wait ▸ closing ▸ standing.bothLoops
      barrier := wait ▸ closing ▸ standing.barrier }

/-! ## The alarm and the sending loop -/

theorem Standing.of_front (standing : s.Standing) (front : t.front = s.front)
    (backlog : t.backlog.Sound) : t.Standing := by
  have lines : t.lineQueue = s.lineQueue := congrArg Front.lineQueue front
  have buffering : t.buffering = s.buffering := congrArg Front.buffering front
  have wait : t.wait? = s.wait? := congrArg Front.wait? front
  have closing : t.closing = s.closing := congrArg Front.closing front
  exact
    { lines := lines ▸ standing.lines
      cuts := buffering ▸ standing.cuts
      backlog
      bothLoops := wait ▸ closing ▸ standing.bothLoops
      barrier := wait ▸ closing ▸ standing.barrier }

theorem Standing.alarm? (standing : s.Standing) (taken : s.alarm? = some t) : t.Standing := by
  apply standing.of_front (front_of_alarm? taken)
  obtain ⟨due, rfl⟩ := fire_of_alarm? taken
  rw [withBacklog_eq]
  exact standing.backlog.fire (standing.backlog.opened_of_alarmDue due) s.now

theorem sound_of_sending? (sound : s.backlog.Sound) (taken : s.sending? setup = some t) :
    t.backlog.Sound := by
  cases action_of_sending? taken with
  | stop => exact sound.close
  | again idle opened retries taken => cases taken <;> exact sound
  | fresh idle opened noRetry parcels taken => cases taken <;> exact sound
  | barrier => exact sound
  | endCall busy isOver ended =>
    cases ended with
    | crashed =>
      dsimp only
      split
      · exact sound.close
      · exact sound
    | delivered => exact sound
    | abandoned => exact sound
    | retried failure wanted left isDelay isAdded => exact isAdded ▸ sound.add _ _ _

theorem Standing.sending? (standing : s.Standing) (taken : s.sending? setup = some t) :
    t.Standing :=
  standing.of_front (front_of_sending? taken) (sound_of_sending? standing.backlog taken)

/-! ## The client -/

theorem Standing.endWait (standing : s.Standing) (wait : Wait) : (s.endWait wait).Standing := by
  have free : { s with wait? := none }.Standing :=
    { standing with bothLoops := by simp, barrier := by simp }
  cases wait with
  | bothLoops residual =>
    unfold State.endWait
    dsimp only
    split <;>
      exact { free with
        bothLoops := by simp [finishClose, record]
        barrier := by simp [finishClose, record] }
  | barrier => exact free
  | instant time => exact free

theorem Standing.served (standing : s.Standing) (free : s.wait? = none) {request : Request}
    (served : Served setup s request t) : t.Standing := by
  have released : (s.withBacklog s.backlog.releaseAll).Standing := by
    apply standing.of_front (front_withBacklog s _)
    rw [withBacklog_eq]
    exact Backlog.Sound.releaseAll s.backlog
  cases served with
  | empty => exact standing
  | refused => exact { standing with }
  | lost => exact { standing with }
  | @accepted chunk filled =>
    have lines : ∀ other ∈ s.lineQueue ++ [chunk], other ≠ [] := by
      simpa [or_imp, forall_and] using ⟨standing.lines, filled⟩
    exact { standing with lines }
  | unencodable error => exact { standing with }
  | flushClosed => exact standing
  | flushStopped => exact { released with }
  | flush opened =>
    have closing : (s.withBacklog s.backlog.releaseAll).closing = false :=
      (congrArg Front.closing (front_withBacklog s _)).trans opened
    exact { released with bothLoops := by simp, barrier := fun _ ↦ closing }
  | close | closeAgain =>
    exact { standing with
      backlog := standing.backlog.close
      bothLoops := fun _ _ ↦ rfl
      barrier := by simp [finishClose, record, free] }
  | giveUp =>
    have backlog : s.giveUp.backlog.Sound := by
      unfold giveUp
      split
      · exact standing.backlog.close
      · exact standing.backlog
    exact { standing with backlog, bothLoops := fun _ _ ↦ rfl, barrier := by simp [giveUp, free] }
  | sleep => exact { standing with bothLoops := by simp, barrier := by simp }

theorem Standing.client? (standing : s.Standing) (taken : s.client? setup = some t) :
    t.Standing := by
  cases action_of_client? taken with
  | endWait waits isOver => exact standing.endWait _
  | @serve request rest _ free asked served =>
    have asked : { s with requests := rest }.Standing := { standing with }
    exact asked.served free served

theorem Standing.step? (standing : s.Standing) {task : Task}
    (taken : s.step? setup task = some t) : t.Standing := by
  cases task with
  | buffering => exact standing.buffering? taken
  | alarm => exact standing.alarm? taken
  | sending => exact standing.sending? taken
  | client => exact standing.client? taken

theorem standing_start (setup : Setup) : (start setup).Standing where
  lines := by simp [start, record]
  cuts := by simp [start, record]
  backlog := .empty _
  bothLoops := by simp [start, record]
  barrier := by simp [start, record]

end State

namespace Reachable

variable {setup : Setup} {s : State}

theorem standing (reachable : Reachable setup s) : s.Standing := by
  induction reachable with
  | start started => exact (start?_eq_ok started).2 ▸ State.standing_start setup
  | move _ move ih =>
    cases move with
    | step task taken => exact ih.step? taken
    | pass now later => exact { ih with }
    | ask requests idle => exact { ih with }

/-! ## The ledger of a run -/

theorem lines_ne_nil_of_calling (accounted : Ledger.Accounted setup s.ledger) {call : Call}
    (busy : s.sending = .calling call) : call.batch.lines ≠ [] := by
  apply accounted.lines_ne_nil
  simp [Ledger.known, Ledger.batches, State.ledger, busy, Sending.batch?]

theorem move_ledger (filled : s.Filled) (accounted : Ledger.Accounted setup s.ledger) {t : State}
    (move : Move setup s t) : Ledger.Steps setup s.ledger t.ledger := by
  cases move with
  | step task taken =>
    exact State.step?_ledger filled (fun _ busy ↦ lines_ne_nil_of_calling accounted busy) taken
  | pass now later => exact .refl
  | ask requests idle => exact .refl

theorem accounted (reachable : Reachable setup s) : Ledger.Accounted setup s.ledger := by
  induction reachable with
  | start started =>
    rw [(start?_eq_ok started).2]
    exact Ledger.accounted_opening trivial
  | move before move ih => exact ih.steps (move_ledger before.standing.toFilled ih move)

/-- The ledger of a reachable state comes from that of a writer just started. -/
theorem steps (reachable : Reachable setup s) : Ledger.Steps setup
    (.opening (.started setup.options.flushInterval.toNat setup.maxRetries)) s.ledger := by
  induction reachable with
  | start started =>
    rw [(start?_eq_ok started).2]
    exact .refl
  | move before move ih => exact ih.trans (move_ledger before.standing.toFilled before.accounted move)

theorem steps_of_runs (reachable : Reachable setup s) {t : State} (run : Runs setup s t) :
    Ledger.Steps setup s.ledger t.ledger := by
  induction run with
  | refl => exact .refl
  | tail run move ih =>
    have before := reachable.runs run
    exact ih.trans (move_ledger before.standing.toFilled before.accounted move)

end Reachable

end LineDelivery.Pipeline
