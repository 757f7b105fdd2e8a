import LineDelivery.Proofs.Pipeline.Holding

/-!
# The end of a writer

A closing that has come back has seen both loops end and the backlog closed, and nothing brings them
back. Only the client has anything left to do then.
-/

namespace LineDelivery.Pipeline

namespace State

variable {setup : Setup} {s t : State}

/-- The writer is closed, and both its loops have ended. -/
structure Ended (s : State) : Prop where
  closing : s.closing
  backlog : s.backlog.closed
  buffering : s.buffering.running = false
  sending : s.sending.isOver

/-! ## What lasts -/

/-- The client leaves both loops alone. -/
theorem loops_of_client? (taken : s.client? setup = some t) :
    t.buffering = s.buffering ∧ t.sending = s.sending := by
  have released : (s.withBacklog s.backlog.releaseAll).buffering = s.buffering ∧
      (s.withBacklog s.backlog.releaseAll).sending = s.sending := by
    rw [withBacklog_eq]
    exact ⟨rfl, rfl⟩
  cases action_of_client? taken with
  | @endWait wait waits isOver =>
    cases wait with
    | bothLoops residual =>
      rw [endWait_bothLoops]
      exact ⟨rfl, rfl⟩
    | _ => exact ⟨rfl, rfl⟩
  | serve free asked served =>
    cases served with
    | flushStopped | flush => rw [withBacklog_eq]; exact ⟨rfl, rfl⟩
    | _ => exact ⟨rfl, rfl⟩

theorem closing_of_step? {task : Task} (closing : s.closing) (taken : s.step? setup task = some t) :
    t.closing := by
  cases task with
  | buffering => exact (congrArg Rear.closing (rear_of_buffering? taken)).trans closing
  | alarm => exact (congrArg Front.closing (front_of_alarm? taken)).trans closing
  | sending => exact (congrArg Front.closing (front_of_sending? taken)).trans closing
  | client =>
    cases action_of_client? taken with
    | @endWait wait waits isOver =>
      cases wait with
      | bothLoops residual =>
        rw [endWait_bothLoops]
        exact closing
      | _ => exact closing
    | serve free asked served =>
      cases served with
      | flushStopped | flush => rw [withBacklog_eq]; exact closing
      | close | closeAgain | giveUp => rfl
      | _ => exact closing

theorem closed_of_step? {task : Task} (closed : s.backlog.closed)
    (taken : s.step? setup task = some t) : t.backlog.closed :=
  backlog_of_step? (motive := fun backlog ↦ backlog.closed) closed
    (fun _ _ ↦ (Backlog.closed_add _ _ _ _).trans closed) closed closed rfl taken

theorem Ended.buffering?_eq_none (ended : s.Ended) : s.buffering? setup = none := by
  simp [State.buffering?, ended.buffering]

theorem sending?_eq_none (isOver : s.sending.isOver) : s.sending? setup = none := by
  unfold sending?
  cases sending : s.sending <;> simp_all [Sending.isOver]

/-- A closed backlog has no alarm. -/
theorem alarm?_eq_none (sound : s.backlog.Sound) (closed : s.backlog.closed) : s.alarm? = none := by
  simp [alarm?, Backlog.alarmDue, sound.alarm, closed]

theorem Ended.task_eq_client (ended : s.Ended) (sound : s.backlog.Sound) {task : Task}
    (taken : s.step? setup task = some t) : task = .client := by
  cases task with
  | buffering => simp [State.step?, ended.buffering?_eq_none] at taken
  | alarm => simp [State.step?, alarm?_eq_none sound ended.backlog] at taken
  | sending => simp [State.step?, sending?_eq_none ended.sending] at taken
  | client => rfl

theorem Ended.step? (ended : s.Ended) {task : Task} (taken : s.step? setup task = some t) :
    t.Ended := by
  have closing := closing_of_step? ended.closing taken
  have backlog := closed_of_step? ended.backlog taken
  cases task with
  | buffering => simp [State.step?, ended.buffering?_eq_none] at taken
  | alarm =>
    obtain ⟨_, rfl⟩ := fire_of_alarm? taken
    rw [withBacklog_eq] at closing backlog ⊢
    exact ⟨closing, backlog, ended.buffering, ended.sending⟩
  | sending => simp [State.step?, sending?_eq_none ended.sending] at taken
  | client =>
    obtain ⟨buffering, sending⟩ := loops_of_client? taken
    exact ⟨closing, backlog, buffering ▸ ended.buffering, sending ▸ ended.sending⟩

/-! ## Closing -/

/-- A closing waits only when the backlog is closed, and answers only when all has ended. -/
structure Ending (s : State) : Prop where
  waits : ∀ residual, s.wait? = some (.bothLoops residual) → s.closing ∧ s.backlog.closed
  answered : s.closed?.isSome → s.joined
  joined : s.joined → s.Ended

/-- The other tasks leave what the client waits for, the answer that it has and what it has seen. -/
theorem clientSide_of_step? {task : Task} (other : task ≠ .client)
    (taken : s.step? setup task = some t) :
    t.wait? = s.wait? ∧ t.closed? = s.closed? ∧ t.joined = s.joined := by
  cases task with
  | buffering =>
    have rear := rear_of_buffering? taken
    exact ⟨congrArg Rear.wait? rear, congrArg Rear.closed? rear, congrArg Rear.joined rear⟩
  | alarm =>
    have front := front_of_alarm? taken
    exact ⟨congrArg Front.wait? front, congrArg Front.closed? front, congrArg Front.joined front⟩
  | sending =>
    have front := front_of_sending? taken
    exact ⟨congrArg Front.wait? front, congrArg Front.closed? front, congrArg Front.joined front⟩
  | client => exact absurd rfl other

/-- Only a closing makes the client wait for both loops, and closes the backlog first. -/
theorem waits_of_served {request : Request} (free : s.wait? = none)
    (served : Served setup s request t) :
    ∀ residual, t.wait? = some (.bothLoops residual) → t.closing ∧ t.backlog.closed := by
  cases served with
  | close => exact fun _ _ ↦ ⟨rfl, rfl⟩
  | _ => simp [record, finishClose, giveUp, withBacklog_eq, free]

theorem joined_of_served {request : Request} (served : Served setup s request t) :
    t.joined = s.joined := by
  cases served <;> simp [record, finishClose, giveUp, withBacklog_eq]

/-- A call answers a closing at once only when an earlier closing has come back. -/
theorem answered_of_served (answered : s.closed?.isSome → s.joined) {request : Request}
    (served : Served setup s request t) : t.closed?.isSome → t.joined := by
  rw [joined_of_served served]
  cases served with
  | closeAgain joined => exact fun _ ↦ joined
  | flushStopped | flush => rw [withBacklog_eq]; exact answered
  | _ => exact answered

theorem Ending.client? (ending : s.Ending) (taken : s.client? setup = some t) : t.Ending := by
  have step : s.step? setup .client = some t := taken
  have still (joined : s.joined) : t.Ended := (ending.joined joined).step? step
  cases action_of_client? taken with
  | @endWait wait waits isOver =>
    cases wait with
    | bothLoops residual =>
      obtain ⟨closing, backlog⟩ := ending.waits residual waits
      simp only [waitIsOver, Bool.and_eq_true, Bool.not_eq_true'] at isOver
      have ended : s.Ended := ⟨closing, backlog, isOver.1, isOver.2⟩
      refine ⟨?_, ?_, fun _ ↦ ended.step? step⟩
      · simp [endWait_bothLoops]
      · simp [endWait_bothLoops]
    | _ => exact ⟨by simp [endWait], ending.answered, still⟩
  | serve free asked served =>
    refine ⟨waits_of_served (by exact free) served, ?_, ?_⟩
    · exact answered_of_served (by exact ending.answered) served
    · exact fun joined ↦ still (joined_of_served served ▸ joined)

theorem Ending.step? (ending : s.Ending) {task : Task} (taken : s.step? setup task = some t) :
    t.Ending := by
  by_cases other : task = .client
  · subst other
    exact ending.client? taken
  · obtain ⟨wait, answer, joined⟩ := clientSide_of_step? other taken
    constructor
    · intro residual waits
      obtain ⟨closing, backlog⟩ := ending.waits residual (wait ▸ waits)
      exact ⟨closing_of_step? closing taken, closed_of_step? backlog taken⟩
    · rw [answer, joined]
      exact ending.answered
    · exact fun isJoined ↦ (ending.joined (joined ▸ isJoined)).step? taken

end State

theorem Reachable.ending {setup : Setup} {s : State} (reachable : Reachable setup s) :
    s.Ending := by
  induction reachable with
  | start started =>
    rw [(start?_eq_ok started).2]
    constructor <;> simp [State.start, State.record]
  | move _ move ih =>
    cases move with
    | step task taken => exact ih.step? taken
    | pass now later => exact ⟨ih.waits, ih.answered, fun joined ↦ { ih.joined joined with }⟩
    | ask requests idle => exact ⟨ih.waits, by simp, fun joined ↦ { ih.joined joined with }⟩

end LineDelivery.Pipeline
