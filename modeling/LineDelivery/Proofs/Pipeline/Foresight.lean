import LineDelivery.Proofs.Pipeline.Order
import LineDelivery.Proofs.Pipeline.Prompt
import LineDelivery.Proofs.Pipeline.Sequential

/-!
# What a writer will have sent

In the middle of a call the chunks are anywhere: in a queue, in the buffer, cut, or handed over. So
each state is read as the buffer with a clock that it will be when all that is under way has been
done and the client has woken up. A step of a task changes that in one of two ways only: the client
asks for something, or the flush timer goes off at the instant at which it is due. Time that passes
while the tasks are at rest does not change it.
-/

namespace LineDelivery

namespace Pipeline

/-- The bytes that the transport was given. -/
def Event.sent? : Event → Option Bytes
  | called batch _ => some batch.lines
  | _ => none

@[simp]
theorem listed_sent?_reports {setup : Setup} {error : DeliveryError} {batch : Batch} {attempt : Nat}
    {events : List Event} :
    listed Event.sent? (reports setup error batch attempt ++ events) =
      listed Event.sent? events :=
  listed_reports rfl

namespace State

variable {setup : Setup} {s t : State}

/-- What the transport was given and when, the oldest first. -/
def sent (s : State) : List (Nat × Bytes) :=
  (s.history.filterMap fun (now, event) ↦ event.sent?.map (now, ·)).reverse

theorem sent_of_history {block : List Event} (history : t.history = s.stamped block ++ s.history) :
    t.sent = s.sent ++ (listed Event.sent? block).map (s.now, ·) := by
  simp [sent, history, stamped, listed, List.filterMap_append, List.filterMap_map,
    List.map_filterMap]

/-- Only the sending loop calls the transport. -/
theorem sent_of_step? {task : Task} (other : task ≠ .sending)
    (taken : s.step? setup task = some t) : t.sent = s.sent := by
  obtain ⟨block, history, own⟩ := writes_of_step? taken
  have silent : listed Event.sent? block = [] := by
    have none : ∀ event ∈ block, event.sent? = none := by
      intro event there
      have writes := own event there
      cases event <;> first | rfl | exact absurd (by simpa [Event.writers] using writes) other
    simp [listed, List.filterMap_eq_nil_iff.mpr none]
  simp [sent_of_history history, silent]

/-- What is on its way to the transport, first what goes first. -/
def onWay (s : State) : List Bytes :=
  ((s.batchQueue ++ s.buffering.handing?.toList).filterMap Parcel.batch?).map Batch.lines ++
    (s.buffering.outbox.filterMap Outgoing.cut?).map LineBuffer.Cut.lines

section

variable (interval : 0 < setup.flushInterval)

/-- The buffer as it is when all that was cut has been sent, and the timer has been started. -/
def underWay (s : State) : TimedBuffer where
  now := s.now
  buffer := s.buffering.buffer
  interval := setup.flushInterval
  positive := interval
  flushAt := if s.buffering.restart then s.now + setup.flushInterval else s.buffering.flushAt
  sent := s.sent ++ s.onWay.map (s.now, ·)

/-- The buffer as it is when the queued lines have been added, and a flush that was asked for has
been done. A timer that is due has still to go off. -/
def caughtUp (s : State) : TimedBuffer :=
  let filled := s.lineQueue.foldl TimedBuffer.add (s.underWay interval)
  if s.flushAsked then filled.flush else filled

/-- The buffer as it is when the client wakes up. -/
def woken (s : State) : TimedBuffer :=
  match s.wait? with
  | some (.instant time) => (s.caughtUp interval).passTo time
  | _ => s.caughtUp interval

@[simp]
theorem now_caughtUp : (s.caughtUp interval).now = s.now := by
  unfold caughtUp
  dsimp only
  split <;> simp [underWay]

theorem now_le_flushAt_caughtUp (tidy : s.Tidy) : s.now ≤ (s.caughtUp interval).flushAt := by
  have filled : s.now ≤ (s.lineQueue.foldl TimedBuffer.add (s.underWay interval)).flushAt := by
    rw [TimedBuffer.flushAt_foldl_add, underWay]
    dsimp only
    split
    · exact Nat.le_add_right _ _
    · exact tidy.timely
  unfold caughtUp
  dsimp only
  split
  · rw [TimedBuffer.flushAt_flush, TimedBuffer.now_foldl_add]
    exact Nat.le_add_right _ _
  · exact filled

theorem woken_of_asleep {time : Nat} (sleeps : s.wait? = some (.instant time)) :
    s.woken interval = (s.caughtUp interval).passTo time := by
  simp only [woken, sleeps]

/-- A client that does not sleep, or no longer, is awake. -/
theorem woken_of_awake (tidy : s.Tidy)
    (awake : ∀ time, s.wait? = some (.instant time) → time = s.now) :
    s.woken interval = s.caughtUp interval := by
  unfold woken
  split
  · next time sleeps =>
    obtain rfl := awake time sleeps
    exact TimedBuffer.passTo_of_now (now_caughtUp interval) (now_le_flushAt_caughtUp interval tidy)
  · rfl

theorem now_le_woken (tidy : s.Tidy) : s.now ≤ (s.woken interval).now := by
  unfold woken
  split
  · next time sleeps =>
    rw [TimedBuffer.now_passTo]
    exact (tidy.asleep time sleeps).1
  · rw [now_caughtUp]

theorem woken_of_caughtUp (caughtUp : t.caughtUp interval = s.caughtUp interval)
    (wait : t.wait? = s.wait?) : t.woken interval = s.woken interval := by
  simp only [woken, caughtUp, wait]

/-! ## The buffering loop -/

/-- A parcel that moves on changes nothing. -/
theorem caughtUp_of_handedOver (now : t.now = s.now) (sent : t.sent = s.sent)
    (onWay : t.onWay = s.onWay) (lines : t.lineQueue = s.lineQueue)
    (asked : t.flushAsked = s.flushAsked) (buffer : t.buffering.buffer = s.buffering.buffer)
    (restart : t.buffering.restart = s.buffering.restart)
    (flushAt : t.buffering.flushAt = s.buffering.flushAt) :
    t.caughtUp interval = s.caughtUp interval := by
  have underWay : t.underWay interval = s.underWay interval := by
    simp only [State.underWay, now, sent, onWay, buffer, restart, flushAt]
  simp only [caughtUp, lines, underWay, asked]

/-- What is cut goes to the end of the way. -/
theorem onWay_of_cut {cuts : List LineBuffer.Cut} (free : s.buffering.outbox = [])
    (parcels : t.batchQueue = s.batchQueue) (handing : t.buffering.handing? = s.buffering.handing?)
    (outbox : t.buffering.outbox.filterMap Outgoing.cut? = cuts) :
    t.onWay = s.onWay ++ cuts.map LineBuffer.Cut.lines := by
  simp only [onWay, free, parcels, handing, outbox, List.filterMap_nil, List.map_nil,
    List.append_nil]

theorem filterMap_cut? (cuts : List LineBuffer.Cut) :
    (cuts.map Outgoing.cut).filterMap Outgoing.cut? = cuts := by
  simp [List.filterMap_map, Function.comp_def, Outgoing.cut?]

theorem underWay_of_gathered {chunk : Bytes} (now : t.now = s.now) (sent : t.sent = s.sent)
    (onWay : t.onWay = s.onWay ++ (s.buffering.buffer.add chunk).1.map LineBuffer.Cut.lines)
    (buffer : t.buffering.buffer = (s.buffering.buffer.add chunk).2)
    (restart : t.buffering.restart = s.buffering.restart)
    (flushAt : t.buffering.flushAt = s.buffering.flushAt) :
    t.underWay interval = (s.underWay interval).add chunk := by
  simp only [underWay, TimedBuffer.add, TimedBuffer.send, now, sent, onWay, buffer, restart,
    flushAt, List.map_append, List.append_assoc, List.map_map, Function.comp_def]

/-- A buffer that has been cut waits only for its timer to be started. -/
theorem underWay_of_flushed (now : t.now = s.now) (sent : t.sent = s.sent)
    (onWay : t.onWay = s.onWay ++ s.buffering.buffer.flush.1.toList.map LineBuffer.Cut.lines)
    (buffer : t.buffering.buffer = s.buffering.buffer.flush.2) (restart : t.buffering.restart) :
    t.underWay interval = (s.underWay interval).flush := by
  simp only [underWay, TimedBuffer.flush, TimedBuffer.send, now, sent, onWay, buffer, restart,
    List.map_append, List.append_assoc, List.map_map, Function.comp_def, if_true]

/-- All that the buffering loop may have to do is to flush when its timer is due. -/
structure AtEase (s : State) : Prop where
  free : s.HandsFree
  started : s.buffering.restart = false
  lineQueue : s.lineQueue = []
  unasked : s.flushAsked = false

theorem AtEase.caughtUp (ease : s.AtEase) : s.caughtUp interval = s.underWay interval := by
  simp [State.caughtUp, ease.lineQueue, ease.unasked]

theorem AtEase.flushAt_caughtUp (ease : s.AtEase) :
    (s.caughtUp interval).flushAt = s.buffering.flushAt := by
  simp [ease.caughtUp interval, underWay, ease.started]

/-- The timer is due, no flush was asked for, and the client is awake. -/
structure Expires (s : State) : Prop extends s.AtEase where
  due : s.buffering.flushAt = s.now
  awake : ∀ time, s.wait? = some (.instant time) → time = s.now

/-- A timer that is due goes off if there is nothing else to do. -/
theorem AtEase.buffering? (ease : s.AtEase) (running : s.buffering.running)
    (due : s.buffering.flushAt ≤ s.now) : s.buffering? setup = some s.flushBuffer := by
  simp [State.buffering?, running, ease.free.opened, ease.free.handing?, ease.free.outbox,
    ease.started, attend?, ease.lineQueue, due]

theorem AtEase.buffering?_eq_none (ease : s.AtEase) (early : s.now < s.buffering.flushAt) :
    s.buffering? setup = none := by
  simp [State.buffering?, ease.free.opened, ease.free.handing?, ease.free.outbox, ease.started,
    attend?, ease.lineQueue, ease.unasked, Nat.not_le.mpr early]

theorem Expires.flushAt_woken (expires : s.Expires) (tidy : s.Tidy) :
    (s.woken interval).flushAt = (s.woken interval).now := by
  rw [woken_of_awake interval tidy expires.awake, now_caughtUp,
    expires.toAtEase.flushAt_caughtUp interval, expires.due]

theorem sent_flushBuffer (s : State) : s.flushBuffer.sent = s.sent := by
  rw [flushBuffer_eq, sent_of_history rfl]
  simp [listed, List.filterMap_map, Function.comp_def, Event.sent?]

/-- The timer goes off. If a flush was asked for at the same instant, it finds the buffer empty. -/
theorem caughtUp_flushBuffer (free : s.HandsFree) (queue : s.lineQueue = []) :
    s.flushBuffer.caughtUp interval = (s.underWay interval).flush := by
  have underWay : s.flushBuffer.underWay interval = (s.underWay interval).flush := by
    have sent := sent_flushBuffer s
    rw [flushBuffer_eq] at sent ⊢
    refine underWay_of_flushed interval rfl sent ?_ rfl rfl
    exact onWay_of_cut free.outbox rfl rfl (filterMap_cut? _)
  have lines : s.flushBuffer.lineQueue = [] := by rw [flushBuffer_eq]; exact queue
  simp only [caughtUp, underWay, lines, List.foldl_nil, TimedBuffer.flush_flush, ite_self]

theorem woken_flushBuffer (expires : s.Expires) (tidy : s.Tidy) (flushed : s.flushBuffer.Tidy) :
    s.flushBuffer.woken interval = (s.woken interval).flush := by
  have awake : ∀ time, s.flushBuffer.wait? = some (.instant time) →
      time = s.flushBuffer.now := by
    rw [flushBuffer_eq]
    exact expires.awake
  rw [woken_of_awake interval flushed awake, woken_of_awake interval tidy expires.awake,
    caughtUp_flushBuffer interval expires.free expires.lineQueue,
    expires.toAtEase.caughtUp interval]

theorem caughtUp_gather {chunk : Bytes} {rest : List Bytes} (free : s.HandsFree)
    (queue : s.lineQueue = chunk :: rest) (sent : (s.gather chunk rest).sent = s.sent) :
    (s.gather chunk rest).caughtUp interval = s.caughtUp interval := by
  have underWay : (s.gather chunk rest).underWay interval = (s.underWay interval).add chunk := by
    rw [gather_eq] at sent ⊢
    refine underWay_of_gathered interval rfl sent ?_ rfl rfl rfl
    exact onWay_of_cut free.outbox rfl rfl (filterMap_cut? _)
  have others : (s.gather chunk rest).flushAsked = s.flushAsked ∧
      (s.gather chunk rest).lineQueue = rest := by
    rw [gather_eq]
    exact ⟨rfl, rfl⟩
  simp only [caughtUp, underWay, others, queue, List.foldl_cons]

theorem caughtUp_flushOnRequest (free : s.HandsFree) (queue : s.lineQueue = [])
    (asked : s.flushAsked) (sent : s.flushOnRequest.sent = s.sent) :
    s.flushOnRequest.caughtUp interval = s.caughtUp interval := by
  have underWay : s.flushOnRequest.underWay interval = (s.underWay interval).flush := by
    rw [flushOnRequest, flushBuffer_eq] at sent ⊢
    refine underWay_of_flushed interval rfl sent (onWay_of_cut free.outbox rfl rfl ?_) rfl rfl
    rw [List.filterMap_append, filterMap_cut?]
    exact List.append_nil _
  have others : s.flushOnRequest.lineQueue = [] ∧ s.flushOnRequest.flushAsked = false := by
    rw [flushOnRequest, flushBuffer_eq]
    exact ⟨queue, rfl⟩
  simp only [caughtUp, underWay, others, queue, asked, List.foldl_nil, Bool.false_eq_true,
    if_false, if_true]

/-- If a flush was asked for, or while the client sleeps, it makes no difference that the timer goes
off. -/
theorem woken_of_due (tidy : s.Tidy) (free : s.HandsFree) (started : s.buffering.restart = false)
    (queue : s.lineQueue = []) (due : s.buffering.flushAt = s.now) :
    s.flushBuffer.woken interval = s.woken interval ∨ s.Expires := by
  have flushed := caughtUp_flushBuffer interval free queue
  have wait : s.flushBuffer.wait? = s.wait? := by rw [flushBuffer_eq]
  cases unasked : s.flushAsked with
  | true =>
    refine .inl (woken_of_caughtUp interval ?_ wait)
    rw [flushed, caughtUp, unasked, queue]
    rfl
  | false =>
    have ease : s.AtEase := ⟨free, started, queue, unasked⟩
    by_cases awake : ∀ time, s.wait? = some (.instant time) → time = s.now
    · exact .inr ⟨ease, due, awake⟩
    · obtain ⟨time, sleeps, notYet⟩ : ∃ time, s.wait? = some (.instant time) ∧ time ≠ s.now := by
        simpa using awake
      have later := Nat.lt_of_le_of_ne (tidy.asleep time sleeps).1 notYet.symm
      have timer : (s.underWay interval).flushAt = (s.underWay interval).now := by
        simp [underWay, started, due]
      left
      rw [woken_of_asleep interval (wait.trans sleeps), woken_of_asleep interval sleeps, flushed,
        ease.caughtUp interval, TimedBuffer.passTo_of_flushAt_eq timer later]

/-- Only where the timer goes off with the client awake does a step of this loop make a
difference. -/
theorem woken_of_buffering? (tidy : s.Tidy) (alive : s.sending.isOver = false)
    (taken : s.buffering? setup = some t) :
    t.woken interval = s.woken interval ∨ s.Expires ∧ t = s.flushBuffer := by
  have step : s.step? setup .buffering = some t := taken
  have sent := sent_of_step? (by decide) step
  have wait : t.wait? = s.wait? := congrArg Rear.wait? (rear_of_buffering? taken)
  have same (caughtUp : t.caughtUp interval = s.caughtUp interval) :
      t.woken interval = s.woken interval ∨ s.Expires ∧ t = s.flushBuffer :=
    .inl (woken_of_caughtUp interval caughtUp wait)
  cases action_of_buffering? taken with
  | stop ended => simp [tidy.opened, alive] at ended
  | enqueue opened handing =>
    refine same (caughtUp_of_handedOver interval rfl rfl ?_ rfl rfl rfl rfl rfl)
    simp [onWay, enqueue, handing]
  | @beginHandOver next rest opened free outbox =>
    cases next with
    | barrier =>
      refine same (caughtUp_of_handedOver interval rfl rfl ?_ rfl rfl rfl rfl rfl)
      simp [onWay, beginHandOver, free, outbox, Parcel.batch?, Outgoing.cut?, List.filterMap_cons]
    | cut cut =>
      refine same (caughtUp_of_handedOver interval rfl sent ?_ rfl rfl rfl rfl rfl)
      simp [onWay, beginHandOver, record, free, outbox, Parcel.batch?, Outgoing.cut?,
        Batch.lines, Batch.form, LineBuffer.Cut.lines]
  | restartTimer free restart =>
    refine same ?_
    simp [caughtUp, underWay, restartTimer, restart, State.sent, State.onWay]
  | gather free started queue => exact same (caughtUp_gather interval free queue sent)
  | flushBuffer free started queue due =>
    have due : s.buffering.flushAt = s.now := Nat.le_antisymm due tidy.timely
    exact (woken_of_due interval tidy free started queue due).imp_right fun expires ↦ ⟨expires, rfl⟩
  | flushOnRequest free started queue early asked =>
    exact same (caughtUp_flushOnRequest interval free queue asked sent)

/-! ## The sending loop -/

theorem woken_of_front (front : t.front = s.front) (now : t.now = s.now)
    (sent : t.sent ++ t.onWay.map (s.now, ·) = s.sent ++ s.onWay.map (s.now, ·)) :
    t.woken interval = s.woken interval := by
  have wait : t.wait? = s.wait? := congrArg Front.wait? front
  have lines : t.lineQueue = s.lineQueue := congrArg Front.lineQueue front
  have asked : t.flushAsked = s.flushAsked := congrArg Front.flushAsked front
  have buffering : t.buffering = s.buffering := congrArg Front.buffering front
  have underWay : t.underWay interval = s.underWay interval := by
    simp only [State.underWay, buffering, now, sent]
  have caughtUp : t.caughtUp interval = s.caughtUp interval := by
    simp only [State.caughtUp, underWay, asked, lines]
  exact woken_of_caughtUp interval caughtUp wait

/-- A call that ends is not a new one. -/
theorem sent_of_callEnded {call : Call} (ended : CallEnded setup s call t)
    (calm : setup.NeverCrashes) (unretried : t.stats.retriesScheduled = 0) : t.sent = s.sent := by
  cases ended with
  | crashed crash => exact absurd crash (calm _ _)
  | delivered => rw [sent_of_history rfl]; simp [Event.sent?]
  | abandoned => rw [sent_of_history rfl]; simp [Event.sent?]
  | retried => simp at unretried

theorem woken_of_sending? (brisk : s.Brisk) (opened : s.closing = false)
    (running : s.buffering.running) (calm : setup.NeverCrashes)
    (taken : s.sending? setup = some t) (unretried : t.stats.retriesScheduled = 0) :
    t.woken interval = s.woken interval := by
  have step : s.step? setup .sending = some t := taken
  have now := now_of_step? step
  refine woken_of_front interval (front_of_sending? taken) now ?_
  cases action_of_sending? taken with
  | stop idle ended => simp [opened, running] at ended
  | again idle opened retries => simp [brisk.retries] at retries
  | @fresh batch rest _ idle opened noRetry parcels taken =>
    have early := brisk.inTime batch (by simp [parcels])
    cases taken with
    | expired isOver =>
      exact absurd early (Nat.not_lt.mpr (by simpa [Batch.hasExpired] using isOver))
    | called =>
      rw [sent_of_history rfl]
      simp [onWay, parcels, Event.sent?, Parcel.batch?, sent]
  | barrier idle opened noRetry parcels =>
    simp [onWay, parcels, List.filterMap_cons, Parcel.batch?, sent]
  | @endCall call _ busy isOver ended =>
    have front := front_of_sending? taken
    have buffering : t.buffering = s.buffering := congrArg Front.buffering front
    have parcels : t.batchQueue = s.batchQueue := by
      cases ended with
      | crashed crash => exact absurd crash (calm _ _)
      | _ => rfl
    simp only [sent_of_callEnded ended calm unretried, onWay, buffering, parcels]

/-! ## The client -/

theorem woken_endWait (tidy : s.Tidy) (standing : s.Standing) {wait : Wait}
    (waits : s.wait? = some wait) (isOver : s.waitIsOver wait) :
    (s.endWait wait).woken interval = s.woken interval := by
  have caughtUp : { s with wait? := none }.caughtUp interval = s.caughtUp interval := rfl
  cases wait with
  | barrier => simp only [woken, endWait, waits, caughtUp]
  | bothLoops residual =>
    have closing := standing.bothLoops residual waits
    simp [tidy.opened] at closing
  | instant time =>
    have awake : ∀ other, s.wait? = some (.instant other) → other = s.now := by
      intro other sleeps
      obtain rfl : time = other := by simpa [waits] using sleeps
      have reached : time ≤ s.now := by simpa [waitIsOver] using isOver
      exact Nat.le_antisymm reached (tidy.asleep time waits).1
    rw [woken_of_awake interval tidy awake]
    simp only [woken, endWait, caughtUp]

theorem endWait_requests (s : State) (wait : Wait) :
    (s.endWait wait).requests = s.requests ∧ (s.endWait wait).lineQueue = s.lineQueue := by
  cases wait with
  | bothLoops residual => rw [endWait_bothLoops]; exact ⟨rfl, rfl⟩
  | _ => exact ⟨rfl, rfl⟩

/-- What the client asks for, it asks of the buffer too. -/
theorem woken_of_served (tidy : s.Tidy) (running : s.buffering.running) {request : Request}
    {rest : List Request} (free : s.wait? = none) (asked : s.requests = request :: rest)
    (served : Served setup { s with requests := rest } request t) (sent : t.sent = s.sent) :
    t.requests = rest ∧ t.woken interval = (s.woken interval).serve request := by
  have opens := tidy.requests request (by simp [asked])
  have unasked := tidy.flushAsked_eq_false free
  have before : s.woken interval = s.caughtUp interval := by simp only [woken, free]
  have filled : s.caughtUp interval = s.lineQueue.foldl TimedBuffer.add (s.underWay interval) := by
    simp [caughtUp, unasked]
  have after (free : t.wait? = none ∨ t.wait? = some .barrier) :
      t.woken interval = t.caughtUp interval := by
    rcases free with free | waits <;> simp only [woken, *]
  rw [before]
  cases served with
  | empty => exact ⟨rfl, (after (.inl free)).trans TimedBuffer.add_nil.symm⟩
  | refused filled closing | flushClosed closing => simp [tidy.opened] at closing
  | lost filled opened stopped => simp [running] at stopped
  | @accepted chunk =>
    refine ⟨rfl, ?_⟩
    rw [after (.inl free), filled]
    simp only [caughtUp, TimedBuffer.serve, record, unasked, Bool.false_eq_true, if_false,
      List.foldl_append, List.foldl_cons, List.foldl_nil, underWay, ← sent]
    rfl
  | unencodable error =>
    refine ⟨rfl, (after (.inl free)).trans ?_⟩
    exact caughtUp_of_handedOver interval rfl sent rfl rfl rfl rfl rfl rfl
  | flushStopped opened stopped => simp [running] at stopped
  | flush =>
    rw [withBacklog_eq] at sent after ⊢
    refine ⟨rfl, (after (.inr rfl)).trans ?_⟩
    rw [filled]
    simp only [caughtUp, if_true, underWay, sent]
    rfl
  | close | closeAgain | giveUp => simp [Request.keepsOpen] at opens
  | sleep duration =>
    refine ⟨rfl, ?_⟩
    simp only [woken, TimedBuffer.serve, now_caughtUp]
    rfl

/-! ## All tasks -/

/-- What a step comes to for the buffer with a clock. -/
inductive Turned (s t : State) : Prop
  | same (requests : t.requests = s.requests) (woken : t.woken interval = s.woken interval)
  | expire (expires : s.Expires) (requests : t.requests = s.requests)
      (woken : t.woken interval = (s.woken interval).flush)
  | serve {request : Request} (requests : s.requests = request :: t.requests)
      (woken : t.woken interval = (s.woken interval).serve request)

theorem turned_of_step? (tidy : s.Tidy) (brisk : s.Brisk) (standing : s.Standing)
    (whole : s.isTorn = false) (calm : setup.NeverCrashes) {task : Task}
    (taken : s.step? setup task = some t) (unretried : t.stats.retriesScheduled = 0) :
    Turned interval s t := by
  obtain ⟨opened, running, alive, _⟩ := isTorn_eq_false.mp whole
  cases task with
  | buffering =>
    have requests : t.requests = s.requests := congrArg Rear.requests (rear_of_buffering? taken)
    rcases woken_of_buffering? interval tidy alive taken with same | ⟨expires, rfl⟩
    · exact .same requests same
    · have flushed := tidy.step? standing taken
      exact .expire expires requests (woken_flushBuffer interval expires tidy flushed)
  | alarm => simp [State.step?, brisk.alarm?_eq_none standing] at taken
  | sending =>
    have requests : t.requests = s.requests := congrArg Front.requests (front_of_sending? taken)
    exact .same requests (woken_of_sending? interval brisk opened running calm taken unretried)
  | client =>
    have sent : t.sent = s.sent := sent_of_step? (by decide) taken
    cases action_of_client? taken with
    | @endWait wait waits isOver =>
      have requests := (s.endWait_requests wait).1
      exact .same requests (woken_endWait interval tidy standing waits isOver)
    | @serve request rest _ free asked served =>
      obtain ⟨requests, woken⟩ := woken_of_served interval tidy running free asked served sent
      exact .serve (asked.trans (requests ▸ rfl)) woken

/-! ## Time -/

theorem onWay_of_atRest (rest : s.AtRest) : s.onWay = [] := by
  simp [onWay, rest.batchQueue, rest.handing?, rest.outbox]

/-- Time that passes in a writer at rest passes for the buffer too. -/
theorem caughtUp_of_pass (rest : s.AtRest) (started : s.buffering.restart = false) (now : Nat) :
    { s with now }.caughtUp interval = { s.caughtUp interval with now } := by
  have same : { s with now }.onWay = s.onWay := rfl
  have before : s.caughtUp interval = s.underWay interval := by
    simp [caughtUp, rest.lineQueue, rest.flushAsked]
  have after : { s with now }.caughtUp interval = { s with now }.underWay interval := by
    simp [caughtUp, rest.lineQueue, rest.flushAsked]
  rw [before, after]
  simp only [underWay, same, onWay_of_atRest rest, started, Bool.false_eq_true, if_false]
  rfl

theorem woken_of_advance? (tidy : s.Tidy) (brisk : s.Brisk) (standing : s.Standing)
    (rest : s.AtRest) (quiescent : s.Quiescent setup) (waiting : s.clientIdle = false)
    (advanced : s.advance? = some t) : t.woken interval = s.woken interval := by
  obtain ⟨time, sleeps, _, _, advance⟩ :=
    advance?_of_atRest tidy brisk standing rest quiescent waiting
  obtain rfl := Option.some.inj (advanced.symm.trans advance)
  rw [woken_of_asleep interval (by exact sleeps),
    caughtUp_of_pass interval rest (rest.timer tidy.opened quiescent).1,
    TimedBuffer.passTo_of_pass, woken_of_asleep interval sleeps]

end

end State

end Pipeline

end LineDelivery
