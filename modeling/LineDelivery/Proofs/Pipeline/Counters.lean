import LineDelivery.Proofs.Pipeline.Holding

/-!
# The counters of a writer

Whatever a counter counts is an event too, and so are the calls of the transport, the handler and
the backoff that come with it. A step that counts something notes at once the events that belong to
it, so the counters and the events never disagree.
-/

namespace LineDelivery.Pipeline

namespace Event

/-- The transport answered. -/
@[simp]
def isAnswer : Event → Bool
  | answered _ _ _ => true
  | _ => false

/-- The transport took a batch. -/
@[simp]
def isSuccess : Event → Bool
  | answered _ _ none => true
  | _ => false

@[simp]
def isReset : Event → Bool
  | backoffReset => true
  | _ => false

@[simp]
def isDelay : Event → Bool
  | delayed _ _ _ => true
  | _ => false

def isRetry : Event → Bool
  | retrying _ _ _ _ => true
  | _ => false

/-- The handler was called for an attempt. -/
@[simp]
def reportsAttempt : Event → Bool
  | reported _ _ attempt => 0 < attempt
  | _ => false

/-- The handler was called for what never came to an attempt. -/
@[simp]
def reportsRecord : Event → Bool
  | reported _ _ attempt => attempt == 0
  | _ => false

/-- The lines that the backlog had no room for. -/
@[simp]
def skippedLines : Event → Nat
  | backlog (.removed item _) => Line.count item.batch.lines
  | _ => 0

/-- Neither the transport, the handler nor the backoff is heard, and no lines are skipped. -/
def IsQuiet : Event → Prop
  | answered _ _ _ | backoffReset | delayed _ _ _ | retrying _ _ _ _ | reported _ _ _ => False
  | backlog (.removed _ _) => False
  | _ => True

end Event

/-- How many retries were scheduled. -/
abbrev retriesIn (events : List Event) : Nat :=
  events.countP Event.isRetry

theorem retriesIn_append (newer older : List Event) :
    retriesIn (newer ++ older) = retriesIn newer + retriesIn older :=
  List.countP_append

theorem countP_reports (p : Event → Bool) (setup : Setup) (error : DeliveryError) (batch : Batch)
    (attempt : Nat) : (reports setup error batch attempt).countP p =
      if setup.verdict?.isSome ∧ p (.reported error (some batch) attempt) then 1 else 0 := by
  unfold reports
  split <;> simp_all [List.countP_cons]

@[simp]
theorem map_skippedLines_reports (setup : Setup) (error : DeliveryError) (batch : Batch)
    (attempt : Nat) : ((reports setup error batch attempt).map Event.skippedLines).sum = 0 := by
  unfold reports
  split <;> rfl

/-! ## Counters and events -/

/-- Counters that go on counting. -/
def Stats.plus (stats more : Stats) : Stats where
  batchesSent := stats.batchesSent + more.batchesSent
  batchesFailed := stats.batchesFailed + more.batchesFailed
  batchesExpired := stats.batchesExpired + more.batchesExpired
  retriesScheduled := stats.retriesScheduled + more.retriesScheduled
  linesSkipped := stats.linesSkipped + more.linesSkipped
  encodingFailures := stats.encodingFailures + more.encodingFailures

/-- The batches that were answered for, be it that they are to be tried again. -/
def Stats.answered (stats : Stats) : Nat :=
  stats.batchesSent + stats.batchesFailed + stats.retriesScheduled

theorem Stats.answered_plus (stats more : Stats) :
    (stats.plus more).answered = stats.answered + more.answered := by
  dsimp only [Stats.plus, Stats.answered]
  omega

/-- The counters tell what the events tell. -/
structure Agree (setup : Setup) (stats : Stats) (events : List Event) : Prop where
  answers : events.countP Event.isAnswer =
    stats.batchesSent + stats.batchesFailed + stats.retriesScheduled
  successes : events.countP Event.isSuccess = stats.batchesSent
  resets : events.countP Event.isReset = stats.batchesSent
  retries : retriesIn events = stats.retriesScheduled
  delays : events.countP Event.isDelay = stats.retriesScheduled
  attempts : setup.verdict?.isSome → events.countP Event.reportsAttempt =
    stats.batchesFailed + stats.retriesScheduled + stats.batchesExpired
  records : setup.verdict?.isSome → events.countP Event.reportsRecord = stats.encodingFailures
  skipped : (events.map Event.skippedLines).sum = stats.linesSkipped

namespace Agree

variable {setup : Setup} {newer older : List Event} {more stats : Stats}

theorem append (agree : Agree setup more newer) (before : Agree setup stats older) :
    Agree setup (stats.plus more) (newer ++ older) := by
  constructor
  case attempts =>
    intro registered
    rw [List.countP_append, agree.attempts registered, before.attempts registered]
    dsimp only [Stats.plus]
    omega
  case records =>
    intro registered
    rw [List.countP_append, agree.records registered, before.records registered]
    exact Nat.add_comm _ _
  case skipped =>
    rw [List.map_append, List.sum_append, agree.skipped, before.skipped]
    exact Nat.add_comm _ _
  all_goals
    simp only [List.countP_append, agree.answers, agree.successes, agree.resets, agree.retries,
      agree.delays, before.answers, before.successes, before.resets, before.retries, before.delays]
    dsimp only [Stats.plus]
    omega

/-! ## What a step notes at once -/

theorem empty : Agree setup {} [] := by
  constructor <;> simp

theorem quiet_cons {event : Event} (quiet : event.IsQuiet) (before : Agree setup stats older) :
    Agree setup stats (event :: older) := by
  have alone : Agree setup {} [event] := by
    cases event with
    | backlog event =>
      cases event with
      | removed => exact quiet.elim
      | _ => constructor <;> simp [Event.isRetry]
    | answered | backoffReset | delayed | retrying | reported => exact quiet.elim
    | _ => constructor <;> simp [Event.isRetry]
  exact alone.append before

theorem quiet {events : List Event} (quiet : ∀ event ∈ events, event.IsQuiet) :
    Agree setup {} events := by
  induction events with
  | nil => exact .empty
  | cons event events ih =>
    obtain ⟨first, others⟩ := List.forall_mem_cons.mp quiet
    exact (ih others).quiet_cons first

variable {attempt : Nat}

theorem expired (batch : Batch) (counted : 0 < attempt) :
    Agree setup { batchesExpired := 1 }
      (reports setup .maxRetryTimeExceeded batch attempt ++ [.expired batch attempt]) := by
  constructor <;> simp +contextual [countP_reports, counted, counted.ne', Event.isRetry]

theorem delivered (batch : Batch) (attempt : Nat) :
    Agree setup { batchesSent := 1 }
      [.delivered batch attempt, .backoffReset, .answered batch attempt none] := by
  constructor <;> simp [List.countP_cons, Event.isRetry]

theorem abandoned (batch : Batch) (counted : 0 < attempt) (error : DeliveryError) :
    Agree setup { batchesFailed := 1 }
      (.abandoned batch attempt error ::
        (reports setup error batch attempt ++ [.answered batch attempt (some error)])) := by
  constructor <;> simp +contextual [countP_reports, counted, counted.ne', Event.isRetry]

theorem retrying (batch : Batch) (counted : 0 < attempt) (error : DeliveryError) (delay : Nat) :
    Agree setup { retriesScheduled := 1 }
      (.retrying batch attempt error delay :: .delayed error attempt delay ::
        (reports setup error batch attempt ++ [.answered batch attempt (some error)])) := by
  constructor <;>
    simp +contextual [countP_reports, List.countP_cons, counted, counted.ne', Event.isRetry]

theorem unencodable (error : DeliveryError) :
    Agree setup { encodingFailures := 1 }
      ((if setup.verdict?.isSome then [.reported error none 0] else []) ++
        [.unencodable error]) := by
  constructor <;> split <;> simp_all [Event.isRetry]

/-- The lines that the backlog skips are those of the batches that it removes. -/
theorem backlog {events : List Backlog.Event}
    (counted : ∀ item limit, .removed item limit ∈ events → item.lineCount = item.batch.lineCount) :
    Agree setup { linesSkipped := State.skippedLines events } (events.reverse.map .backlog) := by
  induction events with
  | nil => exact .empty
  | cons event events ih =>
    have others := ih fun item limit removed ↦ counted item limit (.tail _ removed)
    rw [List.reverse_cons, List.map_append, List.map_singleton]
    have first : Agree setup { linesSkipped := State.skippedLines [event] } [.backlog event] := by
      cases event with
      | removed item limit =>
        have lines := counted item limit (.head _)
        constructor <;> simp [Event.isRetry, State.skippedLines, lines, Batch.lineCount]
      | _ => exact empty.quiet_cons trivial
    have both := others.append first
    cases event <;> simpa [Stats.plus, State.skippedLines] using both

end Agree

/-- The calls of the transport that have no answer. -/
def Sending.unanswered : Sending → Nat
  | .calling _ | .crashed => 1
  | .idle | .stopped => 0

namespace State

variable {setup : Setup} {s t : State}

/-- The counters agree with the events, and so do the numbers of calls of the transport and the
backoff. -/
structure Metered (setup : Setup) (s : State) : Prop where
  agree : Agree setup s.stats s.events
  calls : s.calls = s.stats.answered + s.sending.unanswered
  delays : s.delays = s.stats.retriesScheduled
  attempt : ∀ call, s.sending = .calling call → 0 < call.attempt

/-- What a step that counts nothing leaves alone. -/
def meter (s : State) : Stats × Nat × Nat × Sending :=
  (s.stats, s.calls, s.delays, s.sending)

theorem attemptOf_pos (setup : Setup) (batch : Batch) : 0 < attemptOf setup batch :=
  Nat.lt_min.mpr ⟨Nat.succ_pos _, by decide⟩

namespace Metered

theorem agree_add (metered : s.Metered setup) {block : List Event} {more : Stats}
    (history : t.history = s.stamped block ++ s.history) (stats : t.stats = s.stats.plus more)
    (agree : Agree setup more block) : Agree setup t.stats t.events := by
  have events := events_of_history history
  rw [stats, events]
  exact agree.append metered.agree

theorem quiet (metered : s.Metered setup) (block : List Event)
    (history : t.history = s.stamped block ++ s.history) (same : t.meter = s.meter)
    (quiet : ∀ event ∈ block, event.IsQuiet) : t.Metered setup := by
  obtain ⟨stats, calls, delays, sending⟩ : t.stats = s.stats ∧ t.calls = s.calls ∧
      t.delays = s.delays ∧ t.sending = s.sending := by simpa [meter] using same
  exact
    { agree := metered.agree_add history (by exact stats) (.quiet quiet)
      calls := by rw [calls, stats, sending, metered.calls]
      delays := by rw [delays, stats, metered.delays]
      attempt := sending ▸ metered.attempt }

theorem buffering? (metered : s.Metered setup) (taken : s.buffering? setup = some t) :
    t.Metered setup := by
  cases action_of_buffering? taken with
  | stop =>
    exact metered.quiet [.bufferingStopped s.buffering.buffer.lineCount] rfl rfl
      (by simp [Event.IsQuiet])
  | @beginHandOver next rest =>
    cases next with
    | barrier => exact metered.quiet [] rfl rfl (by simp)
    | cut cut => exact metered.quiet [.formed _] rfl rfl (by simp [Event.IsQuiet])
  | gather =>
    rw [gather_eq]
    refine metered.quiet _ rfl rfl ?_
    simp only [List.mem_append, List.mem_map, List.mem_singleton]
    rintro _ (⟨cut, _, rfl⟩ | rfl) <;> trivial
  | flushBuffer =>
    rw [flushBuffer_eq]
    exact metered.quiet _ rfl rfl (by simp [Event.IsQuiet])
  | flushOnRequest =>
    rw [flushOnRequest, flushBuffer_eq]
    exact metered.quiet _ rfl rfl (by simp [Event.IsQuiet])
  | _ => exact metered.quiet [] rfl rfl (by simp)

theorem withBacklog (metered : s.Metered setup) (outcome : Backlog × List Batch) :
    (s.withBacklog outcome).Metered setup := by
  rw [withBacklog_eq]
  refine metered.quiet _ rfl rfl ?_
  simp only [List.mem_map]
  rintro _ ⟨batch, _, rfl⟩
  split <;> trivial

theorem takenUp (metered : s.Metered setup) (idle : s.sending = .idle) {batch : Batch}
    (taken : TakenUp setup s batch t) : t.Metered setup := by
  have calls : s.calls = s.stats.answered := by simp [metered.calls, idle, Sending.unanswered]
  cases taken with
  | expired =>
    exact
      { agree := metered.agree_add rfl rfl (.expired batch (attemptOf_pos setup batch))
        calls := metered.calls
        delays := metered.delays
        attempt := metered.attempt }
  | called =>
    exact
      { agree := metered.agree_add rfl rfl (.quiet (by simp [Event.IsQuiet]))
        calls := congrArg Nat.succ calls
        delays := metered.delays
        attempt := by simp [attemptOf_pos] }

/-- A call that has ended counts once as answered. -/
theorem ended (metered : s.Metered setup) {call : Call} (busy : s.sending = .calling call)
    {block : List Event} {more : Stats} (history : t.history = s.stamped block ++ s.history)
    (stats : t.stats = s.stats.plus more) (agree : Agree setup more block)
    (once : more.answered = 1) (idle : t.sending = .idle) (calls : t.calls = s.calls)
    (delays : t.delays = s.delays + more.retriesScheduled) : t.Metered setup where
  agree := metered.agree_add history stats agree
  calls := by
    rw [calls, metered.calls, busy, idle, stats, Stats.answered_plus, once]
    rfl
  delays := by
    rw [delays, metered.delays, stats]
    rfl
  attempt := by simp [idle]

theorem callEnded (metered : s.Metered setup) (measured : s.backlog.Measured) {call : Call}
    (busy : s.sending = .calling call) (ended : CallEnded setup s call t) : t.Metered setup := by
  have counted := metered.attempt call busy
  cases ended with
  | crashed =>
    exact
      { agree := metered.agree_add rfl rfl (.quiet (by simp [Event.IsQuiet]))
        calls := by simp [metered.calls, busy, Sending.unanswered]
        delays := metered.delays
        attempt := by simp }
  | delivered =>
    exact metered.ended busy rfl rfl (.delivered call.batch call.attempt) rfl rfl rfl rfl
  | @abandoned took error =>
    exact metered.ended busy rfl rfl (.abandoned call.batch counted error) rfl rfl rfl rfl
  | @retried took error delay added failure wanted left isDelay isAdded =>
    have removed : Agree setup { linesSkipped := skippedLines added.2 }
        (added.2.reverse.map .backlog) :=
      .backlog fun item limit gone ↦ measured.lines_of_removed (isAdded ▸ gone)
    have noted := removed.append (.retrying call.batch counted error delay)
    exact metered.ended busy rfl (by simp [Stats.plus]) noted rfl rfl rfl rfl

theorem sending? (metered : s.Metered setup) (measured : s.backlog.Measured)
    (taken : s.sending? setup = some t) : t.Metered setup := by
  cases action_of_sending? taken with
  | stop idle =>
    have calls : s.calls = s.stats.answered := by simp [metered.calls, idle, Sending.unanswered]
    exact
      { agree := metered.agree.quiet_cons trivial
        calls
        delays := metered.delays
        attempt := by simp [stopSending, record] }
  | @again batch rest _ idle opened retries taken =>
    have begun : Metered setup { s with retryQueue := rest } := { metered with }
    exact begun.takenUp idle taken
  | @fresh batch rest _ idle opened noRetry parcels taken =>
    have begun : Metered setup { s with batchQueue := rest } := { metered with }
    exact begun.takenUp idle taken
  | barrier => exact { metered with }
  | endCall busy isOver ended => exact metered.callEnded measured busy ended

theorem served (metered : s.Metered setup) {request : Request}
    (served : Served setup s request t) : t.Metered setup := by
  cases served with
  | refused => exact metered.quiet [.refused] rfl rfl (by simp [Event.IsQuiet])
  | lost => exact metered.quiet [.lost] rfl rfl (by simp [Event.IsQuiet])
  | @accepted chunk => exact metered.quiet [.accepted chunk] rfl rfl (by simp [Event.IsQuiet])
  | unencodable error =>
    exact
      { agree := metered.agree_add rfl rfl (.unencodable error)
        calls := metered.calls
        delays := metered.delays
        attempt := metered.attempt }
  | flushStopped | flush =>
    exact (metered.withBacklog _).quiet [.flushing _] rfl rfl (by simp [Event.IsQuiet])
  | closeAgain => exact metered.quiet [.stopped _ _] rfl rfl (by simp [Event.IsQuiet])
  | _ => exact { metered with }

theorem client? (metered : s.Metered setup) (taken : s.client? setup = some t) :
    t.Metered setup := by
  cases action_of_client? taken with
  | @endWait wait =>
    cases wait with
    | bothLoops residual =>
      have quiet : ∀ event ∈ s.endEvents residual, event.IsQuiet := by
        unfold endEvents
        split <;> simp [Event.IsQuiet]
      rw [endWait_bothLoops]
      exact metered.quiet _ rfl rfl quiet
    | _ => exact { metered with }
  | @serve request rest _ free asked served =>
    have begun : Metered setup { s with requests := rest } := { metered with }
    exact begun.served served

theorem step? (metered : s.Metered setup) (measured : s.backlog.Measured) {task : Task}
    (taken : s.step? setup task = some t) : t.Metered setup := by
  cases task with
  | buffering => exact metered.buffering? taken
  | alarm =>
    obtain ⟨_, rfl⟩ := fire_of_alarm? taken
    exact metered.withBacklog _
  | sending => exact metered.sending? measured taken
  | client => exact metered.client? taken

theorem start (setup : Setup) : (start setup).Metered setup where
  agree := .quiet (by simp [State.start, record, State.events, Event.IsQuiet])
  calls := rfl
  delays := rfl
  attempt := by simp [State.start, record]

end Metered

end State

namespace Reachable

variable {setup : Setup} {s : State}

theorem metered (reachable : Reachable setup s) : s.Metered setup := by
  induction reachable with
  | start started => exact (start?_eq_ok started).2 ▸ .start setup
  | move before move ih =>
    cases move with
    | step task taken => exact ih.step? before.measured taken
    | pass now later => exact { ih with }
    | ask requests idle => exact { ih with }

/-- Wherever a run has got, the counters agree with the events. The transport was called as often as
it has answered, and once more when it is busy or broke the sending loop; the backoff was asked for
a delay as often as a retry was scheduled. -/
theorem counters_agree (reachable : Reachable setup s) :
    Agree setup s.stats s.events ∧ s.calls = s.stats.answered + s.sending.unanswered ∧
      s.delays = s.stats.retriesScheduled :=
  ⟨reachable.metered.agree, reachable.metered.calls, reachable.metered.delays⟩

end Reachable

/-- A transport that takes the first batch only, and a backlog for one line. The handler does not
want the last batch back. -/
def Setup.beset : Setup where
  options := { batchSize := 1, retryBufferLimit := 1, maxRetryTime := 1000 }
  reply asked := .answer 0 (if asked = 0 then none else some (.server 503 "busy" none))
  verdict? := some fun asked _ ↦ asked ≠ 2
  delay _ _ _ := 1000000000

/-- A writer in which every counter counts. -/
def State.counting : State :=
  let requests := [.line [65], .unencodable (.encoding "null record"), .line [66], .line [67],
    .line [68]]
  { { start .beset with requests }.settle .beset with now := 1000000000 }.settle .beset

theorem Reachable.counting : Reachable .beset State.counting :=
  (Reachable.start rfl).runs ((State.settle_ask_runs _ rfl).trans
    (State.settle_pass_runs _ (by decide +kernel)))

theorem counters_agree_counting :
    State.counting.stats = ⟨1, 1, 1, 2, 1, 1⟩ ∧ State.counting.calls = 4 ∧
      Agree .beset State.counting.stats State.counting.events :=
  ⟨by decide +kernel, by decide +kernel, Reachable.counting.counters_agree.1⟩

end LineDelivery.Pipeline
