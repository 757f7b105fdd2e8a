import LineDelivery.Proofs.Pipeline.AfterClose

/-!
# A writer without its faults

A record that cannot be encoded leaves its traces in the counters, in the history and among the
requests. A writer from which these are erased takes the same steps as the writer itself, except that
it does without the steps at which a fault is noted.
-/

namespace LineDelivery.Pipeline

def Stats.faultless (stats : Stats) : Stats :=
  { stats with encodingFailures := 0 }

/-- What is left of an event, if it is about more than a record that could not be encoded. -/
def Event.faultless? : Event → Option Event
  | unencodable _ => none
  | reported _ none _ => none
  | stopped stats residual => some (stopped stats.faultless residual)
  | event => some event

namespace State

variable {setup : Setup} {s t : State}

def faultlessHistory (history : List (Nat × Event)) : List (Nat × Event) :=
  history.filterMap fun entry ↦ entry.2.faultless?.map (entry.1, ·)

/-- The state as it were if nothing had ever failed to be encoded. -/
def faultless (s : State) : State :=
  { s with
    requests := s.requests.filter fun request ↦ !request.isFault
    closed? := s.closed?.map (Prod.map Stats.faultless id)
    stats := s.stats.faultless
    history := faultlessHistory s.history }

/-- All that the tasks look at stays, but for the requests. -/
theorem faultless_fields (s : State) :
    s.faultless.now = s.now ∧ s.faultless.wait? = s.wait? ∧ s.faultless.lineQueue = s.lineQueue ∧
      s.faultless.flushAsked = s.flushAsked ∧ s.faultless.buffering = s.buffering ∧
      s.faultless.batchQueue = s.batchQueue ∧ s.faultless.retryQueue = s.retryQueue ∧
      s.faultless.sending = s.sending ∧ s.faultless.backlog = s.backlog ∧
      s.faultless.closing = s.closing ∧ s.faultless.joined = s.joined ∧
      s.faultless.calls = s.calls ∧ s.faultless.verdicts = s.verdicts :=
  ⟨rfl, rfl, rfl, rfl, rfl, rfl, rfl, rfl, rfl, rfl, rfl, rfl, rfl⟩

/-- Events about something else stay. -/
theorem faultlessHistory_stamped {block : List Event}
    (kept : ∀ event ∈ block, event.faultless? = some event) (older : List (Nat × Event)) :
    faultlessHistory (s.stamped block ++ older) = s.stamped block ++ faultlessHistory older := by
  induction block with
  | nil => rfl
  | cons event block ih =>
    obtain ⟨first, rest⟩ := List.forall_mem_cons.mp kept
    have tail := ih rest
    simp only [faultlessHistory, stamped_cons, List.cons_append] at tail ⊢
    simp [first, tail]

theorem faultless?_reports {error : DeliveryError} {batch : Batch} {attempt : Nat} :
    ∀ event ∈ reports setup error batch attempt, event.faultless? = some event := by
  unfold reports
  split <;> simp [Event.faultless?]

/-! ## The buffering loop -/

theorem faultless_beginHandOver (s : State) (next : Outgoing) (rest : List Outgoing) :
    (s.beginHandOver setup next rest).faultless = s.faultless.beginHandOver setup next rest := by
  cases next <;> rfl

theorem faultless_send (s : State) (cuts : List LineBuffer.Cut) (buffer : LineBuffer) :
    (s.send cuts buffer).faultless = s.faultless.send cuts buffer := by
  rw [send_eq, send_eq, faultless, faultlessHistory_stamped (by simp [Event.faultless?])]
  rfl

theorem faultless_gather (s : State) (chunk : Bytes) (rest : List Bytes) :
    (s.gather chunk rest).faultless = s.faultless.gather chunk rest :=
  faultless_send _ _ _

theorem faultless_flushBuffer (s : State) : s.flushBuffer.faultless = s.faultless.flushBuffer :=
  faultless_send _ _ _

/-- Puts the barrier behind what was cut. -/
theorem faultless_flushOnRequest (s : State) :
    s.flushOnRequest.faultless = s.faultless.flushOnRequest := by
  have cut := faultless_flushBuffer { s with flushAsked := false }
  exact congrArg (fun s : State ↦ { s with
    buffering := { s.buffering with outbox := s.buffering.outbox ++ [Outgoing.barrier] } }) cut

theorem faultless_buffering? (s : State) :
    s.faultless.buffering? setup = (s.buffering? setup).map faultless := by
  simp only [buffering?, faultless_fields]
  split
  · rfl
  split
  · rfl
  split
  · simp only [hand?, faultless_fields]
    split
    · rfl
    split <;> rfl
  · next next rest _ _ => exact congrArg some (faultless_beginHandOver s next rest).symm
  split
  · rfl
  simp only [attend?, faultless_fields]
  split
  · next chunk rest _ => exact congrArg some (faultless_gather s chunk rest).symm
  split
  · exact congrArg some (faultless_flushBuffer s).symm
  split
  · exact congrArg some (faultless_flushOnRequest s).symm
  · rfl

/-! ## The alarm -/

theorem faultless_withBacklog (s : State) (outcome : Backlog × List Batch) :
    (s.withBacklog outcome).faultless = s.faultless.withBacklog outcome := by
  have kept : ∀ event ∈ outcome.2.reverse.map fun batch ↦
      Event.backlog (if s.sending.isOver then .discarded batch else .released batch),
      event.faultless? = some event := by simp [Event.faultless?]
  rw [withBacklog_eq, withBacklog_eq, faultless, faultlessHistory_stamped kept]
  rfl

theorem faultless_alarm? (s : State) : s.faultless.alarm? = s.alarm?.map faultless := by
  simp only [alarm?, faultless_fields]
  split
  · exact congrArg some (faultless_withBacklog s _).symm
  · rfl

/-! ## The sending loop -/

theorem faultless_report (s : State) (error : DeliveryError) (batch : Batch) (attempt : Nat) :
    (s.report setup error batch attempt).faultless =
      s.faultless.report setup error batch attempt := by
  rw [report_eq, report_eq, faultless, faultlessHistory_stamped faultless?_reports]
  rfl

theorem faultless_takeUp (s : State) (batch : Batch) :
    (s.takeUp setup batch).faultless = s.faultless.takeUp setup batch := by
  simp only [takeUp, faultless_fields]
  split
  · exact faultless_report _ _ _ _
  · rfl

theorem faultless_holdForRetry (s : State) (batch : Batch) (delay : Nat) :
    (s.holdForRetry batch delay).faultless = s.faultless.holdForRetry batch delay := by
  rw [holdForRetry_eq, holdForRetry_eq, faultless,
    faultlessHistory_stamped (by simp [Event.faultless?])]
  rfl

theorem faultless_handleFailure (s : State) (batch : Batch) (attempt : Nat)
    (error : DeliveryError) :
    (s.handleFailure setup batch attempt error).faultless =
      s.faultless.handleFailure setup batch attempt error := by
  have reported : (s.report setup error batch attempt).faultless =
      s.faultless.report setup error batch attempt := faultless_report s error batch attempt
  simp only [handleFailure, faultless_fields, ← reported]
  split
  · exact faultless_holdForRetry _ _ _
  · rfl

theorem faultless_endCall (s : State) (call : Call) :
    (s.endCall setup call).faultless = s.faultless.endCall setup call := by
  simp only [endCall]
  split
  · rfl
  split
  · rfl
  · exact faultless_handleFailure _ _ _ _

theorem faultless_sending? (s : State) :
    s.faultless.sending? setup = (s.sending? setup).map faultless := by
  simp only [sending?, faultless_fields]
  split
  · simp only [nextParcel?, faultless_fields]
    split
    · rfl
    split
    · next batch rest _ =>
      exact congrArg some (faultless_takeUp { s with retryQueue := rest } batch).symm
    · next batch rest _ _ =>
      exact congrArg some (faultless_takeUp { s with batchQueue := rest } batch).symm
    · rfl
    split <;> rfl
  · split
    · exact congrArg some (faultless_endCall _ _).symm
    · rfl
  · rfl
  · rfl

/-! ## The client -/

theorem faultless_serve? (s : State) {request : Request} (sound : request.isFault = false) :
    s.faultless.serve? setup request = (s.serve? setup request).map faultless := by
  cases request with
  | line chunk =>
    simp only [serve?, offerLine?, faultless_fields]
    split
    · rfl
    split
    · rfl
    split
    · rfl
    split <;> rfl
  | unencodable error => simp [Request.isFault] at sound
  | flush =>
    let released := (s.withBacklog s.backlog.releaseAll).record (.flushing s.backlog.items.length)
    have same : (s.faultless.withBacklog s.backlog.releaseAll).record
        (.flushing s.backlog.items.length) = released.faultless :=
      congrArg (record · _) (faultless_withBacklog s _).symm
    simp only [serve?, beginFlush, faultless_fields, same]
    split
    · rfl
    split <;> rfl
  | close =>
    simp only [serve?, beginClose, faultless_fields]
    split <;> rfl
  | giveUp =>
    simp only [serve?, giveUp, faultless_fields]
    split <;> rfl
  | sleep duration => rfl

theorem faultless_endWait (s : State) (wait : Wait) :
    (s.endWait wait).faultless = s.faultless.endWait wait := by
  cases wait with
  | bothLoops residual =>
    simp only [endWait, faultless_fields]
    split <;> rfl
  | _ => rfl

/-- The client is about to note that a record could not be encoded. -/
def Faulting (s : State) : Prop :=
  s.wait? = none ∧ ∃ error rest, s.requests = .unencodable error :: rest

theorem faultless_reportUnencodable (s : State) (error : DeliveryError) :
    (s.reportUnencodable setup error).faultless = s.faultless := by
  unfold reportUnencodable
  dsimp only
  split <;> rfl

/-- Nothing but a trace is left when a fault has been noted. -/
theorem Faulting.client? (faulting : s.Faulting) (setup : Setup) :
    ∃ t, s.client? setup = some t ∧ t.faultless = s.faultless ∧
      t.requests.length < s.requests.length := by
  obtain ⟨free, error, rest, asked⟩ := faulting
  refine ⟨_, client?_of_requests free asked, ?_, ?_⟩
  · refine (faultless_reportUnencodable _ error).trans ?_
    simp [faultless, asked, Request.isFault]
  · unfold reportUnencodable
    dsimp only
    split <;> simp [record, asked]

theorem faultless_client? (ready : ¬ s.Faulting) :
    s.faultless.client? setup = (s.client? setup).map faultless := by
  cases waits : s.wait? with
  | some wait =>
    have still : s.faultless.wait? = some wait := waits
    have isOver : s.faultless.waitIsOver wait = s.waitIsOver wait := by cases wait <;> rfl
    simp only [State.client?, waits, still, isOver]
    split
    · exact congrArg some (faultless_endWait s wait).symm
    · rfl
  | none =>
    have still : s.faultless.wait? = none := waits
    cases asked : s.requests with
    | nil =>
      have none : s.faultless.requests = [] := by simp [faultless, asked]
      simp [State.client?, waits, still, asked, none]
    | cons request rest =>
      have sound : request.isFault = false := by
        cases request with
        | unencodable error => exact absurd ⟨waits, error, rest, asked⟩ ready
        | _ => rfl
      have first : s.faultless.requests =
          request :: rest.filter fun request ↦ !request.isFault := by
        simp [faultless, asked, sound]
      rw [client?_of_requests waits asked, client?_of_requests still first]
      exact faultless_serve? { s with requests := rest } sound

/-! ## All tasks -/

theorem faultless_step? (setup : Setup) {task : Task} (ready : task = .client → ¬ s.Faulting) :
    s.faultless.step? setup task = (s.step? setup task).map faultless := by
  cases task with
  | buffering => exact faultless_buffering? s
  | alarm => exact faultless_alarm? s
  | sending => exact faultless_sending? s
  | client => exact faultless_client? (ready rfl)

end State

end LineDelivery.Pipeline
