import LineDelivery.Pipeline.Step

/-!
# What repeated notes leave behind

Several operations of a writer note one event for each item of a list. Their results are written out
here as one change of the state, so that nothing else of the state is in doubt.
-/

namespace LineDelivery.Pipeline

/-- The call of the failure handler, if there is one. -/
def reports (setup : Setup) (error : DeliveryError) (batch : Batch) (attempt : Nat) : List Event :=
  if setup.verdict?.isSome then [.reported error (some batch) attempt] else []

namespace State

/-- Events of one instant, the newest first, as the history keeps them. -/
def stamped (s : State) (events : List Event) : List (Nat × Event) :=
  events.map fun event ↦ (s.now, event)

@[simp]
theorem stamped_nil (s : State) : s.stamped [] = [] := rfl

@[simp]
theorem stamped_cons (s : State) (event : Event) (events : List Event) :
    s.stamped (event :: events) = (s.now, event) :: s.stamped events := rfl

@[simp]
theorem stamped_append (s : State) (first second : List Event) :
    s.stamped (first ++ second) = s.stamped first ++ s.stamped second :=
  List.map_append

/-- The events of the history without their instants, the newest first. -/
def events (s : State) : List Event :=
  s.history.map Prod.snd

@[simp]
theorem map_snd_stamped (s : State) (events : List Event) :
    (s.stamped events).map Prod.snd = events := by
  simp [stamped, Function.comp_def]

/-- What a step writes into the history, it adds to the events. -/
theorem events_of_history {s t : State} {block : List Event}
    (history : t.history = s.stamped block ++ s.history) : t.events = block ++ s.events := by
  simp [events, history]

theorem report_eq (setup : Setup) (s : State) (error : DeliveryError) (batch : Batch)
    (attempt : Nat) :
    s.report setup error batch attempt =
      { s with
        verdicts := s.verdicts + (reports setup error batch attempt).length
        history := s.stamped (reports setup error batch attempt) ++ s.history } := by
  unfold report reports
  split <;> rfl

def skippedLines : List Backlog.Event → Nat
  | [] => 0
  | .removed item _ :: events => item.lineCount + skippedLines events
  | _ :: events => skippedLines events

theorem foldl_noteBacklog (events : List Backlog.Event) (s : State) :
    events.foldl noteBacklog s =
      { s with
        stats := { s.stats with linesSkipped := s.stats.linesSkipped + skippedLines events }
        history := s.stamped (events.reverse.map .backlog) ++ s.history } := by
  induction events generalizing s with
  | nil => rfl
  | cons event events ih =>
    rw [List.foldl_cons, ih]
    cases event <;> simp [noteBacklog, record, skippedLines, stamped, Nat.add_assoc]

theorem holdForRetry_eq (s : State) (batch : Batch) (delay : Nat) :
    s.holdForRetry batch delay =
      let added := s.backlog.add s.now { batch with remaining := batch.remaining - 1 } delay
      { s with
        backlog := added.1
        stats := { s.stats with linesSkipped := s.stats.linesSkipped + skippedLines added.2 }
        history := s.stamped (added.2.reverse.map .backlog) ++ s.history } :=
  foldl_noteBacklog _ _

theorem foldl_handBack_of_isOver (batches : List Batch) (s : State) (ended : s.sending.isOver) :
    batches.foldl handBack s =
      { s with
        history :=
          s.stamped (batches.reverse.map fun batch ↦ .backlog (.discarded batch)) ++ s.history } := by
  induction batches generalizing s with
  | nil => rfl
  | cons batch batches ih =>
    have first : s.handBack batch = s.record (.backlog (.discarded batch)) := by
      simp [handBack, ended]
    rw [List.foldl_cons, first, ih _ (by exact ended)]
    simp [record, stamped]

theorem foldl_handBack (batches : List Batch) (s : State) (alive : s.sending.isOver = false) :
    batches.foldl handBack s =
      { s with
        retryQueue := s.retryQueue ++ batches
        history :=
          s.stamped (batches.reverse.map fun batch ↦ .backlog (.released batch)) ++ s.history } := by
  induction batches generalizing s with
  | nil => simp
  | cons batch batches ih =>
    have first : s.handBack batch =
        { s with retryQueue := s.retryQueue ++ [batch] }.record (.backlog (.released batch)) := by
      simp [handBack, alive]
    rw [List.foldl_cons, first, ih _ (by exact alive)]
    simp [record, stamped]

theorem withBacklog_eq (s : State) (outcome : Backlog × List Batch) :
    s.withBacklog outcome =
      { s with
        backlog := outcome.1
        retryQueue := if s.sending.isOver then s.retryQueue else s.retryQueue ++ outcome.2
        history :=
          s.stamped (outcome.2.reverse.map fun batch ↦
            .backlog (if s.sending.isOver then .discarded batch else .released batch)) ++
              s.history } := by
  unfold withBacklog
  cases ended : s.sending.isOver with
  | true =>
    rw [foldl_handBack_of_isOver _ _ (by exact ended)]
    rfl
  | false =>
    rw [foldl_handBack _ _ (by exact ended)]
    rfl

theorem foldl_record_cut (cuts : List LineBuffer.Cut) (s : State) :
    cuts.foldl (fun s cut ↦ s.record (.cut cut)) s =
      { s with history := s.stamped (cuts.reverse.map .cut) ++ s.history } := by
  induction cuts generalizing s with
  | nil => rfl
  | cons cut cuts ih =>
    rw [List.foldl_cons, ih]
    simp [record, stamped]

theorem send_eq (s : State) (cuts : List LineBuffer.Cut) (buffer : LineBuffer) :
    s.send cuts buffer =
      { s with
        buffering := { s.buffering with buffer, outbox := cuts.map .cut }
        history := s.stamped (cuts.reverse.map .cut) ++ s.history } :=
  foldl_record_cut cuts _

theorem gather_eq (s : State) (chunk : Bytes) (rest : List Bytes) :
    s.gather chunk rest =
      { s with
        lineQueue := rest
        buffering :=
          { s.buffering with
            buffer := (s.buffering.buffer.add chunk).2
            outbox := (s.buffering.buffer.add chunk).1.map .cut }
        history :=
          s.stamped ((s.buffering.buffer.add chunk).1.reverse.map .cut ++ [.gathered chunk]) ++
            s.history } := by
  simp only [gather, send_eq]
  simp [record, stamped]

theorem flushBuffer_eq (s : State) :
    s.flushBuffer =
      { s with
        buffering :=
          { s.buffering with
            buffer := s.buffering.buffer.flush.2
            outbox := s.buffering.buffer.flush.1.toList.map .cut
            restart := true }
        history := s.stamped (s.buffering.buffer.flush.1.toList.reverse.map .cut) ++ s.history } := by
  simp only [flushBuffer, send_eq]
  rfl

/-- What is written once both loops have ended, the newest first. -/
def endEvents (s : State) (residual : Nat) : List Event :=
  .stopped s.stats residual :: if s.sending = .crashed then [.crashNoticed] else []

theorem endWait_bothLoops (s : State) (residual : Nat) :
    s.endWait (.bothLoops residual) =
      { s with
        wait? := none
        joined := true
        closed? := some (s.stats, residual)
        history := s.stamped (s.endEvents residual) ++ s.history } := by
  unfold endWait endEvents
  dsimp only
  split <;> rfl

end State

end LineDelivery.Pipeline
