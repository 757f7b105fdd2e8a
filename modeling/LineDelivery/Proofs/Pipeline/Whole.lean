import LineDelivery.Proofs.Pipeline.Standing

/-!
# Nothing is lost before closing

Where the transport never breaks the sending loop, both loops run and the backlog is open until the
client closes the writer or gives it up.
-/

namespace LineDelivery.Pipeline

namespace State

variable {setup : Setup} {s t : State}

theorem isTorn_eq_false : s.isTorn = false ↔
    s.closing = false ∧ s.buffering.running ∧ s.sending.isOver = false ∧
      s.backlog.closed = false := by
  simp [isTorn, and_assoc]

theorem isTorn_of_buffering? (whole : s.isTorn = false) (taken : s.buffering? setup = some t) :
    t.isTorn = false := by
  obtain ⟨opened, running, alive, unclosed⟩ := isTorn_eq_false.mp whole
  have rear := rear_of_buffering? taken
  have closing : t.closing = s.closing := congrArg Rear.closing rear
  have sending : t.sending = s.sending := congrArg Rear.sending rear
  have backlog : t.backlog = s.backlog := congrArg Rear.backlog rear
  rw [isTorn_eq_false, closing, sending, backlog]
  refine ⟨opened, ?_, alive, unclosed⟩
  cases action_of_buffering? taken with
  | stop ended => simp [opened, alive] at ended
  | @beginHandOver next => cases next <;> exact running
  | gather => rw [gather_eq]; exact running
  | flushBuffer => rw [flushBuffer_eq]; exact running
  | flushOnRequest => rw [flushOnRequest, flushBuffer_eq]; exact running
  | _ => exact running

theorem isTorn_withBacklog {outcome : Backlog × List Batch}
    (closed : outcome.1.closed = s.backlog.closed) : (s.withBacklog outcome).isTorn = s.isTorn := by
  rw [withBacklog_eq]
  simp [isTorn, closed]

theorem isTorn_of_takenUp {batch : Batch} (idle : s.sending = .idle)
    (taken : TakenUp setup s batch t) : t.isTorn = s.isTorn := by
  cases taken with
  | expired => rfl
  | called => simp [isTorn, Sending.isOver, idle]

theorem isTorn_of_callEnded {call : Call} (calm : setup.NeverCrashes)
    (busy : s.sending = .calling call) (ended : CallEnded setup s call t) :
    t.isTorn = s.isTorn := by
  cases ended with
  | crashed crash => exact absurd crash (calm _ _)
  | retried failure wanted left isDelay isAdded =>
    simp [isTorn, Sending.isOver, busy, isAdded]
  | _ => simp [isTorn, Sending.isOver, busy]

theorem isTorn_of_sending? (calm : setup.NeverCrashes) (whole : s.isTorn = false)
    (taken : s.sending? setup = some t) : t.isTorn = false := by
  obtain ⟨opened, running, _, _⟩ := isTorn_eq_false.mp whole
  cases action_of_sending? taken with
  | stop idle ended => simp [opened, running] at ended
  | again idle opened retries taken =>
    exact (isTorn_of_takenUp (by exact idle) taken).trans whole
  | fresh idle opened noRetry parcels taken =>
    exact (isTorn_of_takenUp (by exact idle) taken).trans whole
  | barrier => exact whole
  | endCall busy isOver ended => exact (isTorn_of_callEnded calm busy ended).trans whole

/-- A client tears the writer only by closing it or giving it up. -/
theorem closing_or_isTorn_of_served {request : Request} (served : Served setup s request t) :
    t.closing ∨ t.closing = s.closing ∧ t.isTorn = s.isTorn := by
  have released : (s.withBacklog s.backlog.releaseAll).closing = s.closing ∧
      (s.withBacklog s.backlog.releaseAll).isTorn = s.isTorn :=
    ⟨congrArg Front.closing (front_withBacklog s _), isTorn_withBacklog rfl⟩
  cases served with
  | flushStopped => exact .inr released
  | flush => exact .inr released
  | close | closeAgain | giveUp => exact .inl rfl
  | _ => exact .inr ⟨rfl, rfl⟩

theorem closing_or_isTorn_of_client? (taken : s.client? setup = some t) :
    t.closing ∨ t.closing = s.closing ∧ t.isTorn = s.isTorn := by
  cases action_of_client? taken with
  | @endWait wait waits isOver =>
    cases wait with
    | bothLoops residual =>
      rw [endWait_bothLoops]
      exact .inr ⟨rfl, rfl⟩
    | barrier => exact .inr ⟨rfl, rfl⟩
    | instant time => exact .inr ⟨rfl, rfl⟩
  | @serve request rest _ free asked served =>
    exact closing_or_isTorn_of_served (s := { s with requests := rest }) served

theorem isTorn_of_step? (calm : setup.NeverCrashes) (whole : s.closing = false → s.isTorn = false)
    {task : Task} (taken : s.step? setup task = some t) (opened : t.closing = false) :
    t.isTorn = false := by
  cases task with
  | buffering =>
    have closing : t.closing = s.closing := congrArg Rear.closing (rear_of_buffering? taken)
    exact isTorn_of_buffering? (whole (closing ▸ opened)) taken
  | alarm =>
    have closing : t.closing = s.closing := congrArg Front.closing (front_of_alarm? taken)
    obtain ⟨_, rfl⟩ := fire_of_alarm? taken
    rw [isTorn_withBacklog (by rfl)]
    exact whole (closing ▸ opened)
  | sending =>
    have closing : t.closing = s.closing := congrArg Front.closing (front_of_sending? taken)
    exact isTorn_of_sending? calm (whole (closing ▸ opened)) taken
  | client =>
    rcases closing_or_isTorn_of_client? taken with closing | ⟨closing, same⟩
    · simp [opened] at closing
    · rw [same]
      exact whole (closing ▸ opened)

end State

theorem Reachable.isTorn_eq_false {setup : Setup} {s : State} (reachable : Reachable setup s)
    (calm : setup.NeverCrashes) (opened : s.closing = false) : s.isTorn = false := by
  induction reachable with
  | start started =>
    rw [(start?_eq_ok started).2]
    rfl
  | move _ move ih =>
    cases move with
    | step task taken => exact State.isTorn_of_step? calm ih taken opened
    | pass now later => exact ih opened
    | ask requests idle => exact ih opened

end LineDelivery.Pipeline
