import LineDelivery.Proofs.Backlog.Holdings
import LineDelivery.Proofs.Pipeline.Actions
import LineDelivery.Proofs.Pipeline.Life

/-!
# Who writes which events

Each kind of event is written by one task, but for the batches that the backlog hands back: the alarm
hands back what is due, and the client all of it when it flushes. A step writes nothing else, and all
of it at the present instant.
-/

namespace LineDelivery.Pipeline

/-- The tasks that write such an event. -/
def Event.writers : Event → List Task
  | started _ _ => []
  | gathered _ | cut _ | formed _ | bufferingStopped _ => [.buffering]
  | accepted _ | refused | lost | unencodable _ | flushing _ | crashNoticed | stopped _ _ => [.client]
  | reported _ none 0 => [.client]
  | backlog (.released _) | backlog (.discarded _) => [.alarm, .client]
  | _ => [.sending]

attribute [local simp] Event.writers

theorem writers_reports {setup : Setup} {error : DeliveryError} {batch : Batch} {attempt : Nat} :
    ∀ event ∈ reports setup error batch attempt, .sending ∈ event.writers := by
  simp [forall_mem_reports]

namespace State

variable {setup : Setup} {s t : State} {task : Task}

/-- A task wrote these events, the newest first, between two states. -/
def Writes (task : Task) (s t : State) : Prop :=
  ∃ block, t.history = s.stamped block ++ s.history ∧ ∀ event ∈ block, task ∈ event.writers

theorem Writes.nothing (history : t.history = s.history) : Writes task s t :=
  ⟨[], history, by simp⟩

theorem Writes.one {event : Event} (history : t.history = (s.now, event) :: s.history)
    (own : task ∈ event.writers) : Writes task s t :=
  ⟨[event], history, by simpa using own⟩

/-- The batches that the backlog hands back are handed back by the alarm or by the client. -/
theorem writers_of_handBack {batches : List Batch} (asks : task = .alarm ∨ task = .client) :
    ∀ event ∈ batches.reverse.map fun batch ↦
        Event.backlog (if s.sending.isOver then .discarded batch else .released batch),
      task ∈ event.writers := by
  simp only [List.mem_map]
  rintro _ ⟨batch, _, rfl⟩
  rcases asks with rfl | rfl <;> split <;> simp

theorem writes_of_buffering? (taken : s.buffering? setup = some t) : Writes .buffering s t := by
  have cuts (cuts : List LineBuffer.Cut) :
      ∀ event ∈ cuts.map Event.cut, Task.buffering ∈ event.writers := by
    simp
  cases action_of_buffering? taken with
  | stop => exact .one rfl (by simp)
  | enqueue | restartTimer => exact .nothing rfl
  | @beginHandOver next rest =>
    cases next with
    | barrier => exact .nothing rfl
    | cut cut => exact .one rfl (by simp)
  | gather =>
    rw [gather_eq]
    exact ⟨_, rfl, List.forall_mem_append.mpr ⟨cuts _, by simp⟩⟩
  | flushBuffer =>
    rw [flushBuffer_eq]
    exact ⟨_, rfl, cuts _⟩
  | flushOnRequest =>
    rw [flushOnRequest, flushBuffer_eq]
    exact ⟨_, rfl, cuts _⟩

theorem writes_of_alarm? (taken : s.alarm? = some t) : Writes .alarm s t := by
  obtain ⟨_, rfl⟩ := fire_of_alarm? taken
  rw [withBacklog_eq]
  exact ⟨_, rfl, writers_of_handBack (.inl rfl)⟩

theorem writes_of_takenUp {batch : Batch} (taken : TakenUp setup s batch t) :
    Writes .sending s t := by
  cases taken with
  | expired =>
    exact ⟨_, rfl, List.forall_mem_append.mpr ⟨writers_reports, by simp⟩⟩
  | called => exact ⟨_, rfl, by simp⟩

/-- What the backlog does with a batch that it is given. -/
theorem writers_of_add {backlog : Backlog} {now delay : Nat} {batch : Batch} :
    ∀ event ∈ (backlog.add now batch delay).2.reverse.map Event.backlog,
      Task.sending ∈ event.writers := by
  generalize backlog.add now batch delay = result, backlog.add_added now batch delay = added
  cases added with
  | ignored => simp
  | refused => simp
  | taken => simp [or_imp, forall_and]

theorem writes_of_callEnded {call : Call} (ended : CallEnded setup s call t) :
    Writes .sending s t := by
  cases ended with
  | crashed | delivered => exact ⟨_, rfl, by simp⟩
  | abandoned =>
    refine ⟨_, rfl, List.forall_mem_cons.mpr ⟨by simp, ?_⟩⟩
    exact List.forall_mem_append.mpr ⟨writers_reports, by simp⟩
  | retried failure wanted left isDelay isAdded =>
    refine ⟨_, rfl, List.forall_mem_append.mpr ⟨isAdded ▸ writers_of_add, ?_⟩⟩
    refine List.forall_mem_cons.mpr ⟨by simp, ?_⟩
    refine List.forall_mem_cons.mpr ⟨by simp, ?_⟩
    exact List.forall_mem_append.mpr ⟨writers_reports, by simp⟩

theorem writes_of_sending? (taken : s.sending? setup = some t) : Writes .sending s t := by
  cases action_of_sending? taken with
  | stop => exact .one rfl (by simp)
  | @again batch rest _ idle opened retries taken =>
    exact writes_of_takenUp (s := { s with retryQueue := rest }) taken
  | @fresh batch rest _ idle opened noRetry parcels taken =>
    exact writes_of_takenUp (s := { s with batchQueue := rest }) taken
  | barrier => exact .nothing rfl
  | endCall busy isOver ended => exact writes_of_callEnded ended

theorem writes_of_served {request : Request} (served : Served setup s request t) :
    Writes .client s t := by
  cases served with
  | refused | lost | accepted => exact .one rfl (by simp)
  | unencodable error =>
    refine ⟨_, rfl, List.forall_mem_append.mpr ⟨?_, by simp⟩⟩
    split <;> simp
  | flushStopped | flush =>
    rw [withBacklog_eq]
    refine ⟨_ :: _, rfl, List.forall_mem_cons.mpr ⟨?_, writers_of_handBack (.inr rfl)⟩⟩
    simp
  | closeAgain => exact .one rfl (by simp)
  | _ => exact .nothing rfl

theorem writes_of_client? (taken : s.client? setup = some t) : Writes .client s t := by
  cases action_of_client? taken with
  | @endWait wait =>
    cases wait with
    | bothLoops residual =>
      rw [endWait_bothLoops]
      refine ⟨_, rfl, List.forall_mem_cons.mpr ⟨by simp, ?_⟩⟩
      split <;> simp
    | _ => exact .nothing rfl
  | @serve request rest _ free asked served =>
    exact writes_of_served (s := { s with requests := rest }) served

/-- A step writes events of its own task only, at the present instant. -/
theorem writes_of_step? (taken : s.step? setup task = some t) : Writes task s t := by
  cases task with
  | buffering => exact writes_of_buffering? taken
  | alarm => exact writes_of_alarm? taken
  | sending => exact writes_of_sending? taken
  | client => exact writes_of_client? taken

end State

end LineDelivery.Pipeline
