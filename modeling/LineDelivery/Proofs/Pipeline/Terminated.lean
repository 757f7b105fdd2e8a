import LineDelivery.Proofs.Line.Count
import LineDelivery.Proofs.Pipeline.AfterClose

/-!
# A writer of terminated chunks

The line buffer adds the newline that a chunk lacks, so it makes no difference whether the chunk
came with it. A writer whose chunks on their way to the buffer are all terminated takes the same
steps as the writer itself, and each step leads to the same state but for these newlines; so does
whatever the scheduler makes of a call.
-/

namespace LineDelivery

namespace Line

@[simp]
theorem isEmpty_terminate (text : Bytes) : (terminate text).isEmpty = text.isEmpty := by
  by_cases filled : text = []
  · rw [filled, terminate_nil]
  · rw [List.isEmpty_eq_false_iff.mpr filled,
      List.isEmpty_eq_false_iff.mpr (terminate_ne_nil filled)]

@[simp]
theorem terminate_terminate (text : Bytes) : terminate (terminate text) = terminate text := by
  by_cases filled : text = []
  · rw [filled, terminate_nil, terminate_nil]
  · have ended := endsInNewline_terminate filled
    generalize terminate text = terminated at ended ⊢
    simp [terminate, ended]

end Line

/-- The buffer terminates a chunk that it is given, and counts the newline in. -/
theorem LineBuffer.add_terminate (buffer : LineBuffer) (chunk : Bytes) :
    buffer.add (Line.terminate chunk) = buffer.add chunk := by
  simp [add, wouldOverflow, push]

namespace Pipeline

def Request.terminated : Request → Request
  | line chunk => line (Line.terminate chunk)
  | request => request

/-- Only the passage of a chunk to the buffer shows whether it came with its newline. -/
def Event.terminated : Event → Event
  | accepted chunk => accepted (Line.terminate chunk)
  | gathered chunk => gathered (Line.terminate chunk)
  | event => event

namespace State

variable {setup : Setup} {s : State}

def terminatedHistory (history : List (Nat × Event)) : List (Nat × Event) :=
  history.map (Prod.map id Event.terminated)

/-- The state as it were if every chunk had come terminated. -/
def terminated (s : State) : State :=
  { s with
    requests := s.requests.map Request.terminated
    lineQueue := s.lineQueue.map Line.terminate
    history := terminatedHistory s.history }

theorem terminated_fields (s : State) :
    s.terminated.now = s.now ∧ s.terminated.wait? = s.wait? ∧
      s.terminated.closed? = s.closed? ∧ s.terminated.flushAsked = s.flushAsked ∧
      s.terminated.buffering = s.buffering ∧ s.terminated.batchQueue = s.batchQueue ∧
      s.terminated.retryQueue = s.retryQueue ∧ s.terminated.sending = s.sending ∧
      s.terminated.backlog = s.backlog ∧ s.terminated.closing = s.closing ∧
      s.terminated.joined = s.joined ∧ s.terminated.stats = s.stats ∧
      s.terminated.calls = s.calls ∧ s.terminated.verdicts = s.verdicts :=
  ⟨rfl, rfl, rfl, rfl, rfl, rfl, rfl, rfl, rfl, rfl, rfl, rfl, rfl, rfl⟩

theorem terminatedHistory_stamped {block : List Event}
    (kept : ∀ event ∈ block, event.terminated = event) (older : List (Nat × Event)) :
    terminatedHistory (s.stamped block ++ older) = s.stamped block ++ terminatedHistory older := by
  have same : (s.stamped block).map (Prod.map id Event.terminated) = s.stamped block := by
    rw [stamped, List.map_map]
    refine List.map_congr_left fun event there ↦ ?_
    rw [Function.comp_apply, Prod.map_apply, kept event there, id]
  rw [terminatedHistory, List.map_append, same]
  rfl

theorem terminated_reports {error : DeliveryError} {batch : Batch} {attempt : Nat} :
    ∀ event ∈ reports setup error batch attempt, event.terminated = event := by
  unfold reports
  split <;> simp [Event.terminated]

/-! ## The buffering loop -/

theorem terminated_beginHandOver (s : State) (next : Outgoing) (rest : List Outgoing) :
    (s.beginHandOver setup next rest).terminated = s.terminated.beginHandOver setup next rest := by
  cases next <;> rfl

theorem terminated_send (s : State) (cuts : List LineBuffer.Cut) (buffer : LineBuffer) :
    (s.send cuts buffer).terminated = s.terminated.send cuts buffer := by
  rw [send_eq, send_eq, terminated, terminatedHistory_stamped (by simp [Event.terminated])]
  rfl

/-- What the loop gathers is the same for the buffer. -/
theorem terminated_gather (s : State) (chunk : Bytes) (rest : List Bytes) :
    (s.gather chunk rest).terminated =
      s.terminated.gather (Line.terminate chunk) (rest.map Line.terminate) := by
  simp only [gather, terminated_fields, LineBuffer.add_terminate]
  exact terminated_send _ _ _

theorem terminated_flushBuffer (s : State) : s.flushBuffer.terminated = s.terminated.flushBuffer :=
  terminated_send _ _ _

theorem terminated_flushOnRequest (s : State) :
    s.flushOnRequest.terminated = s.terminated.flushOnRequest := by
  have cut := terminated_flushBuffer { s with flushAsked := false }
  exact congrArg (fun s : State ↦ { s with
    buffering := { s.buffering with outbox := s.buffering.outbox ++ [Outgoing.barrier] } }) cut

theorem terminated_attend? (s : State) : s.terminated.attend? = s.attend?.map terminated := by
  cases queued : s.lineQueue with
  | cons chunk rest =>
    have first : s.terminated.lineQueue = Line.terminate chunk :: rest.map Line.terminate := by
      simp [terminated, queued]
    simp only [attend?, queued, first]
    exact congrArg some (terminated_gather s chunk rest).symm
  | nil =>
    have none : s.terminated.lineQueue = [] := by simp [terminated, queued]
    simp only [attend?, queued, none, terminated_fields]
    split
    · exact congrArg some (terminated_flushBuffer s).symm
    split
    · exact congrArg some (terminated_flushOnRequest s).symm
    · rfl

theorem terminated_buffering? (s : State) :
    s.terminated.buffering? setup = (s.buffering? setup).map terminated := by
  simp only [buffering?, terminated_fields]
  split
  · rfl
  split
  · rfl
  split
  · simp only [hand?, terminated_fields]
    split
    · rfl
    split <;> rfl
  · next next rest _ _ => exact congrArg some (terminated_beginHandOver s next rest).symm
  split
  · rfl
  · exact terminated_attend? s

/-! ## The alarm and the sending loop -/

theorem terminated_withBacklog (s : State) (outcome : Backlog × List Batch) :
    (s.withBacklog outcome).terminated = s.terminated.withBacklog outcome := by
  rw [withBacklog_eq, withBacklog_eq, terminated,
    terminatedHistory_stamped (by simp [Event.terminated])]
  rfl

theorem terminated_alarm? (s : State) : s.terminated.alarm? = s.alarm?.map terminated := by
  simp only [alarm?, terminated_fields]
  split
  · exact congrArg some (terminated_withBacklog s _).symm
  · rfl

theorem terminated_report (s : State) (error : DeliveryError) (batch : Batch) (attempt : Nat) :
    (s.report setup error batch attempt).terminated =
      s.terminated.report setup error batch attempt := by
  rw [report_eq, report_eq, terminated, terminatedHistory_stamped terminated_reports]
  rfl

theorem terminated_takeUp (s : State) (batch : Batch) :
    (s.takeUp setup batch).terminated = s.terminated.takeUp setup batch := by
  simp only [takeUp, terminated_fields]
  split
  · exact terminated_report _ _ _ _
  · rfl

theorem terminated_holdForRetry (s : State) (batch : Batch) (delay : Nat) :
    (s.holdForRetry batch delay).terminated = s.terminated.holdForRetry batch delay := by
  rw [holdForRetry_eq, holdForRetry_eq, terminated,
    terminatedHistory_stamped (by simp [Event.terminated])]
  rfl

theorem terminated_handleFailure (s : State) (batch : Batch) (attempt : Nat)
    (error : DeliveryError) :
    (s.handleFailure setup batch attempt error).terminated =
      s.terminated.handleFailure setup batch attempt error := by
  simp only [handleFailure, terminated_fields, ← terminated_report]
  split
  · exact terminated_holdForRetry _ _ _
  · rfl

theorem terminated_endCall (s : State) (call : Call) :
    (s.endCall setup call).terminated = s.terminated.endCall setup call := by
  simp only [endCall]
  split
  · rfl
  split
  · rfl
  · exact terminated_handleFailure _ _ _ _

theorem terminated_sending? (s : State) :
    s.terminated.sending? setup = (s.sending? setup).map terminated := by
  simp only [sending?, terminated_fields]
  split
  · simp only [nextParcel?, terminated_fields]
    split
    · rfl
    split
    · next batch rest _ =>
      exact congrArg some (terminated_takeUp { s with retryQueue := rest } batch).symm
    · next batch rest _ _ =>
      exact congrArg some (terminated_takeUp { s with batchQueue := rest } batch).symm
    · rfl
    split <;> rfl
  · split
    · exact congrArg some (terminated_endCall _ _).symm
    · rfl
  · rfl
  · rfl

/-! ## The client -/

/-- A chunk finds as many others before it. -/
theorem terminated_offerLine? (s : State) (chunk : Bytes) :
    s.terminated.offerLine? setup (Line.terminate chunk) =
      (s.offerLine? setup chunk).map terminated := by
  have queued : s.terminated.lineQueue.length = s.lineQueue.length := List.length_map _
  simp only [offerLine?, terminated_fields, queued, Line.isEmpty_terminate]
  split
  · rfl
  split
  · rfl
  split
  · rfl
  split
  · simp [terminated, record, terminatedHistory, Event.terminated]
  · rfl

theorem terminated_beginFlush (s : State) : s.beginFlush.terminated = s.terminated.beginFlush := by
  have released : (s.terminated.withBacklog s.backlog.releaseAll).record
      (.flushing s.backlog.items.length) =
        ((s.withBacklog s.backlog.releaseAll).record
          (.flushing s.backlog.items.length)).terminated :=
    congrArg (record · _) (terminated_withBacklog s _).symm
  simp only [beginFlush, terminated_fields, released]
  split
  · rfl
  split <;> rfl

theorem terminated_serve? (s : State) (request : Request) :
    s.terminated.serve? setup request.terminated = (s.serve? setup request).map terminated := by
  cases request with
  | line chunk => exact terminated_offerLine? s chunk
  | unencodable error =>
    simp only [Request.terminated, serve?, reportUnencodable, terminated_fields]
    split <;> rfl
  | flush => exact congrArg some (terminated_beginFlush s).symm
  | close =>
    simp only [Request.terminated, serve?, beginClose, terminated_fields]
    split <;> rfl
  | giveUp =>
    simp only [Request.terminated, serve?, giveUp, terminated_fields]
    rfl
  | sleep duration => rfl

theorem terminated_endWait (s : State) (wait : Wait) :
    (s.endWait wait).terminated = s.terminated.endWait wait := by
  cases wait with
  | bothLoops residual =>
    simp only [endWait, terminated_fields]
    split <;> rfl
  | _ => rfl

theorem terminated_client? (s : State) :
    s.terminated.client? setup = (s.client? setup).map terminated := by
  cases waits : s.wait? with
  | some wait =>
    have still : s.terminated.wait? = some wait := waits
    have isOver : s.terminated.waitIsOver wait = s.waitIsOver wait := by cases wait <;> rfl
    simp only [client?, waits, still, isOver]
    split
    · exact congrArg some (terminated_endWait s wait).symm
    · rfl
  | none =>
    have still : s.terminated.wait? = none := waits
    cases asked : s.requests with
    | nil =>
      have none : s.terminated.requests = [] := by simp [terminated, asked]
      simp [client?, waits, still, asked, none]
    | cons request rest =>
      have first : s.terminated.requests = request.terminated :: rest.map Request.terminated := by
        simp [terminated, asked]
      rw [client?_of_requests waits asked, client?_of_requests still first]
      exact terminated_serve? { s with requests := rest } request

/-! ## All tasks -/

theorem terminated_step? (setup : Setup) (s : State) (task : Task) :
    s.terminated.step? setup task = (s.step? setup task).map terminated := by
  cases task with
  | buffering => exact terminated_buffering? s
  | alarm => exact terminated_alarm? s
  | sending => exact terminated_sending? s
  | client => exact terminated_client? s

/-! ## The scheduler -/

theorem clientIdle_terminated (s : State) : s.terminated.clientIdle = s.clientIdle := by
  simp [clientIdle, terminated]

theorem terminated_work (s : State) : s.terminated.work setup = s.work setup := by
  have asked : s.terminated.requests.map (requestWork setup) =
      s.requests.map (requestWork setup) := by
    rw [terminated, List.map_map]
    refine List.map_congr_left fun request _ ↦ ?_
    cases request <;> rfl
  have queued : s.terminated.lineQueue.length = s.lineQueue.length := List.length_map _
  have client : s.terminated.clientWork setup = s.clientWork setup := by
    simp only [clientWork, asked, queued, terminated_fields]
  simp only [work, client]
  rfl

theorem terminated_turn? (s : State) (last : Task) :
    s.terminated.turn? setup last = (s.turn? setup last).map (Prod.map id terminated) := by
  simp only [turn?, terminated_step?, List.map_findSome?, Option.map_map, Function.comp_def]
  rfl

theorem terminated_takeTurns (turns : Nat) (last : Task) (s : State) :
    takeTurns setup turns last s.terminated = (takeTurns setup turns last s).terminated := by
  induction turns generalizing last s with
  | zero => rfl
  | succ turns ih =>
    rw [takeTurns, takeTurns, terminated_turn?]
    cases s.turn? setup last with
    | none => rfl
    | some next => exact ih next.1 next.2

theorem terminated_settle (s : State) :
    s.terminated.settle setup = (s.settle setup).terminated := by
  rw [settle, terminated_work, terminated_takeTurns]
  rfl

theorem terminated_advance? (s : State) :
    s.terminated.advance? = s.advance?.map terminated := by
  have times : s.terminated.wakeUpTimes = s.wakeUpTimes := rfl
  simp only [advance?, times, Option.map_map, Function.comp_def]
  rfl

theorem terminated_finishCall? (pauses : Nat) (s : State) :
    finishCall? setup pauses s.terminated = (finishCall? setup pauses s).map terminated := by
  induction pauses generalizing s with
  | zero =>
    simp only [finishCall?, clientIdle_terminated]
    split <;> rfl
  | succ pauses ih =>
    simp only [finishCall?, clientIdle_terminated, terminated_advance?]
    split
    · rfl
    cases s.advance? with
    | none => rfl
    | some t => exact (congrArg _ (terminated_settle t)).trans (ih (t.settle setup))

theorem terminated_perform? (pauses : Nat) (s : State) (requests : List Request) :
    s.terminated.perform? setup pauses (requests.map Request.terminated) =
      (s.perform? setup pauses requests).map terminated := by
  rw [perform?, perform?, ← terminated_finishCall?, ← terminated_settle]
  rfl

end State

end Pipeline

end LineDelivery
