import LineDelivery.Proofs.Pipeline.Flush
import LineDelivery.Proofs.Pipeline.Refinement

/-!
# What a flush delivers

Options are workable if they pass their check, the queues can be made, and batches are given some
time. A writer with such options starts, and where the transport accepts every batch at once, a
flush returns when everything written before it has been delivered. The check alone does not make
options workable: a batch that is given no time is dropped before it is sent, and queues can be too
large to be made.
-/

namespace LineDelivery.Pipeline

/-! ## What was written -/

namespace Request

/-- The chunk that a request writes, if it is not empty. -/
def chunk? : Request → Option Bytes
  | line chunk => if chunk = [] then none else some chunk
  | _ => none

end Request

namespace ClientCall

/-- The chunks that a call writes. -/
def chunks : ClientCall → List Bytes
  | write chunk => [chunk]
  | writeAll records => (records.filter fun record ↦ record.fault?.isNone).map Encoded.output
  | flush => []
  | sleep _ => []

end ClientCall

/-- The chunks that calls write, without the empty ones. -/
def writtenBy (calls : List ClientCall) : List Bytes :=
  (calls.flatMap ClientCall.chunks).filter (· ≠ [])

theorem writtenBy_eq (calls : List ClientCall) :
    writtenBy calls = (calls.flatMap ClientCall.requests).filterMap Request.chunk? := by
  have each (call : ClientCall) :
      call.chunks.filter (· ≠ []) = call.requests.filterMap Request.chunk? := by
    cases call with
    | write chunk =>
      by_cases empty : chunk = [] <;>
        simp [ClientCall.chunks, ClientCall.requests, Request.chunk?, empty]
    | writeAll records =>
      simp only [ClientCall.chunks, ClientCall.requests]
      induction records with
      | nil => rfl
      | cons record records ih =>
        cases fault : record.fault? with
        | some error =>
          simpa [Request.ofEncoded, Request.chunk?, fault, List.filterMap_cons] using ih
        | none =>
          by_cases empty : record.output = [] <;>
            simpa [Request.ofEncoded, Request.chunk?, fault, empty] using ih
    | _ => rfl
  simp only [writtenBy, List.filter_flatMap, List.filterMap_flatMap, each]

/-! ## Deliveries -/

/-- The batch that was delivered. -/
def Event.delivered? : Event → Option Batch
  | delivered batch _ => some batch
  | _ => none

namespace Setup

/-- The transport accepts every batch at once. -/
def AcceptsAll (setup : Setup) : Prop :=
  ∀ asked, setup.reply asked = .answer 0 none

theorem AcceptsAll.isPrompt {setup : Setup} (accepts : setup.AcceptsAll) : setup.IsPrompt :=
  fun asked ↦ ⟨none, accepts asked⟩

theorem AcceptsAll.isFinal {setup : Setup} (accepts : setup.AcceptsAll) : setup.IsFinal := by
  intro asked delay error answer
  simp [accepts asked] at answer

end Setup

namespace State

variable {setup : Setup} {s t : State}

/-- Every batch that was handled is delivered, but for the one in the transport's hands. -/
def Delivering (s : State) : Prop :=
  listed Event.delivered? s.events ++ s.sending.batch?.toList =
    listed Event.handledFirst? s.events

theorem Delivering.sending? (delivering : s.Delivering) (accepts : setup.AcceptsAll)
    (brisk : s.Brisk) (sorted : s.ledger.Sorted setup) (taken : s.sending? setup = some t) :
    t.Delivering := by
  have before := delivering
  unfold Delivering at before ⊢
  cases action_of_sending? taken with
  | stop idle =>
    rw [idle] at before
    simpa [stopSending, record, events, Event.delivered?, Event.handledFirst?, Sending.batch?]
      using before
  | again idle opened retries => simp [brisk.retries] at retries
  | @fresh batch rest _ idle opened noRetry parcels taken =>
    have early := brisk.inTime batch (by simp [parcels])
    have remaining := sorted.conveyor batch (by simp [ledger, parcels])
    have first : attemptOf setup batch = 1 := by
      simp [attemptOf_eq_one_iff, Setup.isRetry, remaining]
    rw [idle] at before
    cases taken with
    | expired isOver =>
      exact absurd early (Nat.not_lt.mpr (by simpa [Batch.hasExpired] using isOver))
    | called inTime =>
      simpa [events, Event.delivered?, Event.handledFirst?, first, Sending.batch?] using before
  | barrier idle opened noRetry parcels => exact before
  | @endCall call _ busy isOver ended =>
    have success := accepts call.asked
    rw [busy] at before
    cases ended with
    | crashed crash => simp [success] at crash
    | delivered =>
      simpa [events, Event.delivered?, Event.handledFirst?, Sending.batch?] using before
    | abandoned failure | retried failure => simp [success] at failure

theorem Delivering.step? (delivering : s.Delivering) (accepts : setup.AcceptsAll)
    (brisk : s.Brisk) (sorted : s.ledger.Sorted setup) {task : Task}
    (taken : s.step? setup task = some t) : t.Delivering := by
  by_cases other : task = .sending
  · subst other
    exact delivering.sending? accepts brisk sorted taken
  · have writes := writes_of_step? taken
    obtain ⟨sending, _⟩ := sendingSide_of_step? other taken
    -- Only the sending loop writes that a batch was handled.
    have unhandled : listed Event.handledFirst? t.events = listed Event.handledFirst? s.events :=
      writes.listed_eq fun event own ↦ by
        cases event <;> simp_all [Event.writers, Event.handledFirst?]
    have undelivered : listed Event.delivered? t.events = listed Event.delivered? s.events :=
      writes.listed_eq fun event own ↦ by
        cases event <;> simp_all [Event.writers, Event.delivered?]
    rw [Delivering, undelivered, unhandled, sending]
    exact delivering

/-! ## What is written is accepted -/

theorem lineQueue_of_served (opened : s.closing = false) (running : s.buffering.running)
    {request : Request} (served : Served setup s request t) :
    t.lineQueue = s.lineQueue ++ request.chunk?.toList ∧ t.requests = s.requests := by
  cases served with
  | refused filled closing => simp [opened] at closing
  | lost filled opened stopped => simp [running] at stopped
  | accepted filled => simp [record, Request.chunk?, filled]
  | flushStopped | flush => rw [withBacklog_eq]; simp [record, Request.chunk?]
  | _ => simp [record, finishClose, giveUp, Request.chunk?]

theorem requests_of_step? {task : Task} (other : task ≠ .client)
    (taken : s.step? setup task = some t) : t.requests = s.requests := by
  cases task with
  | buffering => exact congrArg Rear.requests (rear_of_buffering? taken)
  | alarm => exact congrArg Front.requests (front_of_alarm? taken)
  | sending => exact congrArg Front.requests (front_of_sending? taken)
  | client => exact absurd rfl other

/-- The chunks that the client has still to write in its present call. -/
def toWrite (s : State) : List Bytes :=
  s.requests.filterMap Request.chunk?

/-- A chunk that is written is accepted. -/
theorem accepted_of_step? (opened : s.closing = false) (running : s.buffering.running) {task : Task}
    (taken : s.step? setup task = some t) :
    acceptedIn t.events ++ t.toWrite = acceptedIn s.events ++ s.toWrite := by
  by_cases other : task ≠ .client
  · rw [acceptedIn_of_writes other (writes_of_step? taken), toWrite,
      requests_of_step? other taken, toWrite]
  · obtain rfl := not_not.mp other
    obtain ⟨more, accepted, queue⟩ := accepts_of_client? taken
    -- What was accepted is what the line queue has gained.
    cases action_of_client? taken with
    | @endWait wait =>
      obtain ⟨requests, lines⟩ := endWait_requests s wait
      obtain rfl : more = [] := by simpa [lines] using queue
      rw [accepted, toWrite, requests, List.append_nil, toWrite]
    | @serve request rest _ free asked served =>
      obtain ⟨lines, requests⟩ :=
        lineQueue_of_served (s := { s with requests := rest }) opened running served
      obtain rfl : more = request.chunk?.toList := List.append_cancel_left (queue.symm.trans lines)
      rw [accepted, toWrite, requests, toWrite, asked, List.filterMap_cons]
      cases request.chunk? <;> simp

/-! ## The last flush -/

/-- Nothing is on its way, and no barrier either. -/
structure Drained (s : State) : Prop where
  clear : s.ledger.Clear
  passed : s.barrierHeld = false

theorem Drained.lines (drained : s.Drained) (filled : s.Filled) :
    s.lineQueue = [] ∧ s.buffering.buffer.isEmpty ∧ s.batchQueue = [] ∧
      s.buffering.handing? = none ∧ s.buffering.outbox = [] := by
  obtain ⟨upstream, conveyor, _, _⟩ := drained.clear
  have passed := drained.passed
  simp only [ledger, List.append_eq_nil_iff, List.map_eq_nil_iff, List.flatMap_eq_nil_iff,
    Option.toList_eq_nil_iff] at upstream conveyor
  obtain ⟨⟨outbox, buffer⟩, lines⟩ := upstream
  refine ⟨lines, LineBuffer.chunks_eq_nil_iff.mp buffer, conveyor.1, conveyor.2, ?_⟩
  refine List.eq_nil_iff_forall_not_mem.mpr fun next there ↦ ?_
  cases next with
  | cut cut => exact filled.cuts cut there (outbox _ there)
  | barrier => simp [barrierHeld, there] at passed

/-- Where nothing is on its way and the client writes nothing, it stays so. -/
theorem Drained.step? (drained : s.Drained) (brisk : s.Brisk) (standing : s.Standing)
    (whole : s.isTorn = false) {task : Task} (other : task ≠ .client)
    (taken : s.step? setup task = some t) : t.Drained := by
  obtain ⟨lines, empty, parcels, free, outbox⟩ := drained.lines standing.toFilled
  obtain ⟨opened, running, alive, _⟩ := isTorn_eq_false.mp whole
  obtain ⟨clear, passed⟩ := drained
  have unasked : s.flushAsked = false := by
    simp only [barrierHeld, Bool.or_eq_false_iff] at passed
    exact passed.1.1.1
  cases task with
  | buffering =>
    cases action_of_buffering? taken with
    | stop ended => simp [opened, alive] at ended
    | enqueue _ handing => simp [free] at handing
    | beginHandOver _ _ some => simp [outbox] at some
    | restartTimer => exact ⟨{ clear with }, passed⟩
    | gather _ _ some => simp [lines] at some
    | flushBuffer =>
      have uncut := LineBuffer.flush_of_isEmpty empty
      rw [flushBuffer_eq]
      constructor
      · constructor
        case upstream => simp [ledger, uncut, lines, LineBuffer.chunks_eq_nil_iff.mpr empty]
        case conveyor => exact clear.conveyor
        case retries => exact clear.retries
        case idle => exact clear.idle
      · simp [barrierHeld, unasked, uncut, free, parcels]
    | flushOnRequest _ _ _ _ asked => simp [unasked] at asked
  | alarm => simp [State.step?, brisk.alarm?_eq_none standing] at taken
  | sending =>
    have idle : s.sending = .idle := clear.idle
    cases action_of_sending? taken with
    | stop idle ended => simp [opened, running] at ended
    | again _ _ some => simp [brisk.retries] at some
    | fresh _ _ _ some | barrier _ _ _ some => simp [parcels] at some
    | endCall busy => simp [idle] at busy
  | client => exact absurd rfl other

/-- Where the client stands whose last request is a flush. -/
inductive Flushing (s : State) : Prop
  | ahead (before : List Request) (requests : s.requests = before ++ [.flush])
  | waiting (requests : s.requests = []) (waits : s.wait? = some .barrier)
      (drained : s.barrierHeld = false → s.ledger.Clear)
  | returned (requests : s.requests = []) (free : s.wait? = none) (drained : s.Drained)

theorem Flushing.served {request : Request} {rest before : List Request}
    (whole : s.isTorn = false) (asked : s.requests = request :: rest)
    (last : s.requests = before ++ [.flush])
    (served : Served setup { s with requests := rest } request t) : t.Flushing := by
  obtain ⟨opened, running, _, _⟩ := isTorn_eq_false.mp whole
  have requests := (lineQueue_of_served (by exact opened) (by exact running) served).2
  rw [asked] at last
  cases before with
  | nil =>
    obtain ⟨rfl, rfl⟩ := List.cons.inj last
    cases served with
    | flushClosed closing => simp [opened] at closing
    | flushStopped _ stopped => simp [running] at stopped
    | flush => exact .waiting requests rfl (by simp [barrierHeld])
  | cons first before =>
    obtain ⟨_, rest⟩ := List.cons.inj last
    exact .ahead before (requests.trans rest)

end State

section

variable {setup : Setup} {s t : State} {called : List ClientCall}
  {interval : 0 < setup.flushInterval}

theorem OnCourse.flushing_step? (onCourse : OnCourse setup interval called s)
    (calm : setup.NeverCrashes) (flushing : s.Flushing) {task : Task}
    (taken : s.step? setup task = some t) : t.Flushing := by
  have standing := onCourse.reachable.standing
  have whole := onCourse.isTorn_eq_false calm
  by_cases other : task ≠ .client
  · have same := State.requests_of_step? other taken
    obtain ⟨wait, _⟩ := State.clientSide_of_step? other taken
    cases flushing with
    | ahead before requests => exact .ahead before (same.trans requests)
    | waiting requests waits drained =>
      refine .waiting (same.trans requests) (wait.trans waits) fun passed ↦ ?_
      -- The last thing that was on its way can only have gone with the barrier.
      cases held : s.barrierHeld with
      | true =>
        have after := onCourse.reachable.barrierHeld_or_clear calm waits held (.step task taken)
        exact after.resolve_left fun still ↦ by simp [passed] at still
      | false =>
        have none : s.Drained := ⟨drained held, held⟩
        exact (none.step? onCourse.brisk standing whole other taken).clear
    | returned requests free drained =>
      exact .returned (same.trans requests) (wait.trans free)
        (drained.step? onCourse.brisk standing whole other taken)
  · obtain rfl := not_not.mp other
    cases flushing with
    | ahead before requests =>
      cases State.action_of_client? taken with
      | @endWait wait =>
        exact .ahead before ((State.endWait_requests s wait).1.trans requests)
      | serve free asked served => exact .served whole asked requests served
    | waiting requests waits drained =>
      obtain ⟨passed, rfl⟩ := State.passed_of_client? waits taken
      exact .returned requests rfl ⟨{ drained passed with }, passed⟩
    | returned requests free drained =>
      simp [State.step?, State.client?, requests, free] at taken

end

/-! ## Whole calls -/

/-- How far a writer has come with the chunks of these calls. -/
structure Delivers (called : List ClientCall) (s : State) : Prop where
  delivering : s.Delivering
  accepted : acceptedIn s.events ++ s.toWrite = writtenBy called
  flushing : ∀ before, called = before ++ [.flush] → s.Flushing

namespace Delivers

variable {setup : Setup} {called : List ClientCall} {s t : State}

theorem start (setup : Setup) : Delivers [] (.start setup) where
  delivering := rfl
  accepted := rfl
  flushing before none := by simp at none

theorem call (delivers : Delivers called s) (idle : s.clientIdle) (next : List ClientCall) :
    Delivers (called ++ next)
      { s with requests := next.flatMap ClientCall.requests, closed? := none } := by
  obtain ⟨none, free⟩ := State.clientIdle_iff.mp idle
  refine ⟨delivers.delivering, ?_, fun before last ↦ ?_⟩
  · have accepted : acceptedIn s.events = writtenBy called := by
      simpa [State.toWrite, none] using delivers.accepted
    have both : writtenBy (called ++ next) = writtenBy called ++ writtenBy next := by
      simp [writtenBy]
    rw [both, ← accepted, writtenBy_eq next]
    rfl
  · rcases List.eq_nil_or_concat next with rfl | ⟨others, final, rfl⟩
    · cases delivers.flushing before (by simpa using last) with
      | ahead before requests => simp [none] at requests
      | waiting requests waits => simp [free] at waits
      | returned requests free drained => exact .returned rfl free { drained with }
    · rw [List.concat_eq_append, ← List.append_assoc] at last
      obtain rfl := List.singleton_inj.mp (List.append_inj' last rfl).2
      exact .ahead (others.flatMap ClientCall.requests) (by simp [ClientCall.requests])

theorem move {interval : 0 < setup.flushInterval} {called : List ClientCall}
    (delivers : Delivers called s) (onCourse : OnCourse setup interval called s)
    (accepts : setup.AcceptsAll) (move : ClockedMove setup s t) : Delivers called t := by
  have calm := accepts.isPrompt.neverCrashes
  obtain ⟨opened, running, _, _⟩ := State.isTorn_eq_false.mp (onCourse.isTorn_eq_false calm)
  cases move with
  | step task taken =>
    have sorted := onCourse.reachable.sorted
    exact
      { delivering := delivers.delivering.step? accepts onCourse.brisk sorted taken
        accepted := (State.accepted_of_step? opened running taken).trans delivers.accepted
        flushing := fun before last ↦
          onCourse.flushing_step? calm (delivers.flushing before last) taken }
  | wait waiting quiescent advanced =>
    obtain ⟨time, _, rfl⟩ := Option.map_eq_some_iff.mp advanced
    refine ⟨delivers.delivering, delivers.accepted, fun before last ↦ ?_⟩
    cases delivers.flushing before last with
    | ahead before requests => exact .ahead before requests
    | waiting requests waits drained =>
      exact .waiting requests waits fun passed ↦ { drained passed with }
    | returned requests free drained =>
      exact .returned requests free ⟨{ drained.clear with }, drained.passed⟩

end Delivers

section

variable {setup : Setup} {s t : State} {calls called : List ClientCall}

theorem Plays.delivers (plays : Plays setup s called t) (started : start? setup = .ok s)
    (interval : 0 < setup.flushInterval) (accepts : setup.AcceptsAll)
    (time : 0 < setup.maxRetryTime) (easy : Effortless setup s calls) (first : called <+: calls) :
    Delivers called t := by
  induction plays with
  | start => exact (start?_eq_ok started).2 ▸ .start setup
  | call before idle next ih => exact (ih ((List.prefix_append _ _).trans first)).call idle next
  | move before move ih =>
    have calm := accepts.isPrompt.neverCrashes
    exact (ih first).move (before.onCourse interval started calm time easy first) accepts move

/-- When the last call, a flush, has returned, all that was written is delivered. -/
theorem Delivers.delivered (delivers : Delivers (calls ++ [.flush]) t)
    (reachable : Reachable setup t) (calm : setup.NeverCrashes) (opened : t.closing = false)
    (idle : t.clientIdle) :
    (listed Event.delivered? t.events).flatMap Batch.chunks =
      (writtenBy calls).map Line.terminate := by
  obtain ⟨none, free⟩ := State.clientIdle_iff.mp idle
  cases delivers.flushing calls rfl with
  | ahead before requests => simp [none] at requests
  | waiting requests waits => simp [free] at waits
  | returned requests _ drained =>
    have clear := drained.clear
    have handled : listed Event.handledFirst? t.events = formedIn t.events := by
      have fresh := (reachable.queued calm opened).fresh
      rwa [clear.conveyor, List.filterMap_nil, List.append_nil] at fresh
    have delivered : listed Event.delivered? t.events = formedIn t.events := by
      have idle : t.sending = .idle := clear.idle
      simpa [State.Delivering, idle, Sending.batch?, handled] using delivers.delivering
    have accepted : acceptedIn t.events = writtenBy calls := by
      simpa [State.toWrite, none, writtenBy, ClientCall.chunks] using delivers.accepted
    have formed : (formedIn t.events).flatMap Batch.chunks =
        (acceptedIn t.events).map Line.terminate := by
      have ordered := reachable.accounted.ordered (reachable.isTorn_eq_false calm opened)
      rwa [clear.upstream, List.append_nil] at ordered
    rw [delivered, formed, accepted]

end

/-! ## Workable options -/

/-- What becomes of a writer on which a client makes calls and then flushes, whatever order the
tasks take their steps in. -/
structure DeliversAll (setup : Setup) (s : State) (calls : List ClientCall) : Prop where
  /-- The client comes to the end of its flush. -/
  flushes : ∃ t, Plays setup s (calls ++ [.flush]) t ∧ t.clientIdle
  /-- The flush returns. -/
  returns : ∀ t, Plays setup s (calls ++ [.flush]) t → Finally setup (·.clientIdle) t
  /-- When it has returned, each chunk written has been delivered, once, in order and terminated. -/
  delivered : ∀ t, Plays setup s (calls ++ [.flush]) t → t.clientIdle →
    (listed Event.delivered? t.events).flatMap Batch.chunks =
      (writtenBy calls).map Line.terminate

/-- With options that pass their check, give batches some time and do not ask for queues that are
too large, a writer starts and delivers all that is written before a flush. -/
theorem deliversAll_of_check {setup : Setup} (valid : setup.options.check = .ok ())
    (capacity : setup.channelCapacity ≤ greatestCapacity) (time : 0 < setup.maxRetryTime)
    (accepts : setup.AcceptsAll) {calls : List ClientCall}
    (inRange : endOf calls < Time.horizon) :
    ∃ s, start? setup = .ok s ∧ s.isTorn = false ∧ DeliversAll setup s calls := by
  have started : start? setup = .ok (.start setup) := by
    rw [start?, valid]
    exact if_neg (Nat.not_lt.mpr capacity)
  have calm := accepts.isPrompt.neverCrashes
  have interval := (Reachable.start started).flushInterval_pos
  have ends : endOf (calls ++ [.flush]) = endOf calls := by
    rw [endOf, List.foldl_append]
    rfl
  have easy : Effortless setup (.start setup) (calls ++ [.flush]) :=
    effortless_of_isPrompt started accepts.isPrompt accepts.isFinal time (ends ▸ inRange)
  have returns (t : State) (plays : Plays setup (.start setup) (calls ++ [.flush]) t) :
      Finally setup (·.clientIdle) t :=
    (plays.finishes interval started calm time easy List.prefix_rfl).imp fun u ends ↦ ends.1.idle
  have fresh : Plays setup (.start setup) [] _ := .start
  have called := fresh.call rfl (calls ++ [.flush])
  refine ⟨_, started, rfl, called.exists_of_finally (returns _ called), returns, ?_⟩
  · intro t plays idle
    have onCourse := plays.onCourse interval started calm time easy List.prefix_rfl
    have delivers := plays.delivers started interval accepts time easy List.prefix_rfl
    exact delivers.delivered onCourse.reachable calm onCourse.tidy.opened idle

/-- A transport that accepts everything, and the shortest time that a batch can be given. -/
def Setup.welcoming : Setup where
  options := { batchSize := 2, maxRetryTime := 1 }
  reply _ := .answer 0 none
  verdict? := none
  delay _ _ _ := 0

/-- Two lines fill a batch, an empty one is nothing, the timer sends the third one during the sleep,
and the flush sends the last. -/
theorem deliversAll_welcoming :
    let calls : List ClientCall :=
      [.write [65], .write [], .write [66], .write [67], .sleep 1500000000,
        .writeAll [⟨[68], none⟩, ⟨[69], some (.encoding "bad")⟩]]
    Setup.welcoming.options.check = .ok () ∧ Setup.welcoming.AcceptsAll ∧
      endOf calls = 1500000000 ∧
      ∃ s t, start? .welcoming = .ok s ∧ Plays .welcoming s (calls ++ [.flush]) t ∧ t.clientIdle ∧
        (listed Event.delivered? t.events).flatMap Batch.chunks =
          [[65, 10], [66, 10], [67, 10], [68, 10]] := by
  intro calls
  have valid : Setup.welcoming.options.check = .ok () := by decide
  have accepts : Setup.welcoming.AcceptsAll := fun _ ↦ rfl
  have ends : endOf calls = 1500000000 := by decide
  have inRange : endOf calls < Time.horizon := by rw [ends]; decide
  obtain ⟨s, started, _, all⟩ :=
    deliversAll_of_check valid (by decide) (by decide) accepts inRange
  obtain ⟨t, plays, idle⟩ := all.flushes
  exact ⟨valid, accepts, ends, s, t, started, plays, idle, all.delivered t plays idle⟩

/-- The same transport, but batches are given no time. -/
def Setup.hasty : Setup :=
  { Setup.welcoming with options := { maxRetryTime := 0 } }

/-- The same transport, with queues that are too large to be made. -/
def Setup.immense : Setup :=
  { Setup.welcoming with options := { channelCapacity := 2305843009213693952 } }

/-- Both pass their check, but the first drops what is written, and the second does not start. -/
theorem unworkable_hasty_immense :
    (Setup.hasty.options.check = .ok () ∧ Setup.hasty.AcceptsAll ∧
      start? .hasty = .ok (.start .hasty) ∧
      ∃ t, Plays .hasty (.start .hasty) [.write [97], .flush] t ∧ t.clientIdle ∧
        writtenBy [.write [97]] = [[97]] ∧ listed Event.delivered? t.events = []) ∧
    Setup.immense.options.check = .ok () ∧ Setup.immense.AcceptsAll ∧
      start? .immense = .error .capacityTooLarge := by
  have fresh : Plays .hasty (.start .hasty) [] _ := .start
  have called := fresh.call rfl [.write [97], .flush]
  refine ⟨⟨by decide, fun _ ↦ rfl, rfl, _, called.settle, ?_, by decide, ?_⟩, by decide,
    fun _ ↦ rfl, by decide⟩
  · decide +kernel
  · decide +kernel

end LineDelivery.Pipeline
