import LineDelivery.Proofs.Pipeline.Clocked
import LineDelivery.Proofs.Pipeline.Standstill

/-!
# A transport that takes no time

Where no call of the transport takes time and no retry is scheduled, nothing waits on its way to the
transport while time passes. Time passes only while the client sleeps, and then up to the end of its
sleep or to the flush timer, whichever comes first.
-/

namespace LineDelivery.Pipeline

open Time (nanosPerMilli)

namespace Setup

theorem dvd_flushInterval (setup : Setup) : nanosPerMilli ∣ setup.flushInterval :=
  Nat.dvd_mul_left _ _

end Setup

namespace Request

def keepsOpen : Request → Bool
  | close => false
  | giveUp => false
  | _ => true

end Request

theorem ClientCall.keepsOpen_of_mem {call : ClientCall} {request : Request}
    (there : request ∈ call.requests) : request.keepsOpen := by
  cases call with
  | writeAll records =>
    obtain ⟨record, _, rfl⟩ := List.mem_map.mp there
    unfold Request.ofEncoded
    split <;> rfl
  | _ =>
    obtain rfl := List.mem_singleton.mp there
    rfl

namespace State

variable {setup : Setup} {s t : State}

/-- The clock shows whole milliseconds, and has passed neither the flush timer nor the end of the
client's sleep. -/
structure Tidy (s : State) : Prop where
  whole : nanosPerMilli ∣ s.now
  timer : nanosPerMilli ∣ s.buffering.flushAt
  opened : s.closing = false
  requests : ∀ request ∈ s.requests, request.keepsOpen
  asked : s.flushAsked → s.wait? = some .barrier
  asleep : ∀ time, s.wait? = some (.instant time) → s.now ≤ time ∧ nanosPerMilli ∣ time
  timely : s.now ≤ s.buffering.flushAt

/-- No retry was scheduled, and no call of the transport takes any time. -/
structure Easy (s : State) : Prop where
  unretried : s.stats.retriesScheduled = 0
  atOnce : ∀ call, s.sending = .calling call → call.endsAt ≤ s.now

/-- Nothing on the way to the transport is late or was there before. -/
structure Brisk (s : State) : Prop where
  retries : s.retryQueue = []
  held : s.backlog.items = []
  calling : ∀ call, s.sending = .calling call → call.endsAt ≤ s.now
  inTime : ∀ batch, .batch batch ∈ s.batchQueue ++ s.buffering.handing?.toList →
    s.now < batch.expires

/-! ## The client's side -/

/-- No flush was asked for while the client waits for nothing. -/
theorem Tidy.flushAsked_eq_false (tidy : s.Tidy) (free : s.wait? = none) : s.flushAsked = false := by
  cases held : s.flushAsked with
  | false => rfl
  | true => simpa [free] using tidy.asked held

theorem Tidy.of_front (tidy : s.Tidy) (front : t.front = s.front) (now : t.now = s.now) :
    t.Tidy := by
  have requests : t.requests = s.requests := congrArg Front.requests front
  have wait : t.wait? = s.wait? := congrArg Front.wait? front
  have asked : t.flushAsked = s.flushAsked := congrArg Front.flushAsked front
  have buffering : t.buffering = s.buffering := congrArg Front.buffering front
  have closing : t.closing = s.closing := congrArg Front.closing front
  exact
    { whole := now ▸ tidy.whole
      timer := buffering ▸ tidy.timer
      opened := closing.trans tidy.opened
      requests := requests ▸ tidy.requests
      asked := asked ▸ wait ▸ tidy.asked
      asleep := wait ▸ now ▸ tidy.asleep
      timely := buffering ▸ now ▸ tidy.timely }

theorem timer_of_buffering? (taken : s.buffering? setup = some t) :
    (t.flushAsked → s.flushAsked) ∧ (t.buffering.flushAt = s.buffering.flushAt ∨
      t.buffering.flushAt = s.now + setup.flushInterval) := by
  cases action_of_buffering? taken with
  | stop => exact ⟨by simp [stopBuffering, record], .inl rfl⟩
  | enqueue => exact ⟨id, .inl rfl⟩
  | @beginHandOver next => cases next <;> exact ⟨id, .inl rfl⟩
  | restartTimer => exact ⟨id, .inr rfl⟩
  | gather => rw [gather_eq]; exact ⟨id, .inl rfl⟩
  | flushBuffer => rw [flushBuffer_eq]; exact ⟨id, .inl rfl⟩
  | flushOnRequest free started queue early asked =>
    rw [flushOnRequest, flushBuffer_eq]
    exact ⟨fun _ ↦ asked, .inl rfl⟩

theorem Tidy.buffering? (tidy : s.Tidy) (taken : s.buffering? setup = some t) : t.Tidy := by
  have rear := rear_of_buffering? taken
  have step : s.step? setup .buffering = some t := taken
  have now := now_of_step? step
  have requests : t.requests = s.requests := congrArg Rear.requests rear
  have wait : t.wait? = s.wait? := congrArg Rear.wait? rear
  have closing : t.closing = s.closing := congrArg Rear.closing rear
  obtain ⟨asked, timer⟩ := timer_of_buffering? taken
  have later : nanosPerMilli ∣ t.buffering.flushAt ∧ s.now ≤ t.buffering.flushAt := by
    rcases timer with same | anew
    · rw [same]
      exact ⟨tidy.timer, tidy.timely⟩
    · rw [anew]
      exact ⟨Nat.dvd_add tidy.whole setup.dvd_flushInterval, Nat.le_add_right _ _⟩
  exact
    { whole := now ▸ tidy.whole
      timer := later.1
      opened := closing.trans tidy.opened
      requests := requests ▸ tidy.requests
      asked := fun held ↦ wait ▸ tidy.asked (asked held)
      asleep := wait ▸ now ▸ tidy.asleep
      timely := now ▸ later.2 }

theorem Tidy.endWait (tidy : s.Tidy) (standing : s.Standing) {wait : Wait}
    (waits : s.wait? = some wait) (isOver : s.waitIsOver wait) : (s.endWait wait).Tidy := by
  have unasked : s.flushAsked = false := by
    cases asked : s.flushAsked with
    | false => rfl
    | true =>
      obtain rfl : wait = .barrier := Option.some.inj (waits.symm.trans (tidy.asked asked))
      simp [waitIsOver, barrierHeld, asked] at isOver
  have free : { s with wait? := none }.Tidy :=
    { tidy with asked := by simp [unasked], asleep := by simp }
  cases wait with
  | barrier | instant time => exact free
  | bothLoops residual =>
    have closing := standing.bothLoops residual waits
    simp [tidy.opened] at closing

theorem Tidy.served {request : Request} {rest : List Request} (tidy : s.Tidy)
    (free : s.wait? = none) (asked : s.requests = request :: rest)
    (served : Served setup { s with requests := rest } request t) : t.Tidy := by
  obtain ⟨opens, requests⟩ := List.forall_mem_cons.mp (asked ▸ tidy.requests)
  have unasked := tidy.flushAsked_eq_false free
  have base : { s with requests := rest }.Tidy :=
    { tidy with requests, asleep := by simp [free] }
  cases served with
  | empty | flushClosed => exact base
  | refused | lost | accepted | unencodable => exact { base with }
  | flushStopped => exact base.of_front (front_withBacklog _ _) (by rw [withBacklog_eq]; rfl)
  | flush =>
    rw [withBacklog_eq]
    exact { base with asked := fun _ ↦ rfl, asleep := by simp }
  | close | closeAgain | giveUp => simp [Request.keepsOpen] at opens
  | sleep duration =>
    have later := (Time.le_deadline s.now duration).trans (Time.le_wakeUp _)
    refine { base with asked := by simp [unasked], asleep := fun time sleeps ↦ ?_ }
    obtain rfl : _ = time := by simpa using sleeps
    exact ⟨later, Time.dvd_wakeUp _⟩

theorem Tidy.step? (tidy : s.Tidy) (standing : s.Standing) {task : Task}
    (taken : s.step? setup task = some t) : t.Tidy := by
  have now := now_of_step? taken
  cases task with
  | buffering => exact tidy.buffering? taken
  | alarm => exact tidy.of_front (front_of_alarm? taken) now
  | sending => exact tidy.of_front (front_of_sending? taken) now
  | client =>
    cases action_of_client? taken with
    | endWait waits isOver => exact tidy.endWait standing waits isOver
    | serve free asked served => exact tidy.served free asked served

/-! ## The rear -/

theorem Brisk.buffering? (brisk : s.Brisk) (time : 0 < setup.maxRetryTime)
    (taken : s.buffering? setup = some t) : t.Brisk := by
  have rear := rear_of_buffering? taken
  have step : s.step? setup .buffering = some t := taken
  have now := now_of_step? step
  have retries : t.retryQueue = s.retryQueue := congrArg Rear.retryQueue rear
  have backlog : t.backlog = s.backlog := congrArg Rear.backlog rear
  have sending : t.sending = s.sending := congrArg Rear.sending rear
  refine
    { retries := retries.trans brisk.retries
      held := backlog ▸ brisk.held
      calling := sending ▸ now ▸ brisk.calling
      inTime := now ▸ ?_ }
  cases action_of_buffering? taken with
  | stop =>
    intro batch there
    exact brisk.inTime batch (List.mem_append_left _ (by simpa [stopBuffering, record] using there))
  | enqueue opened handing =>
    simpa [enqueue, handing] using brisk.inTime
  | @beginHandOver next rest opened free outbox =>
    have before := brisk.inTime
    simp only [free, Option.toList_none, List.append_nil] at before
    cases next with
    | barrier => simpa [beginHandOver] using before
    | cut cut =>
      intro batch there
      simp only [beginHandOver, record, Option.toList_some, List.mem_append,
        List.mem_singleton, Parcel.batch.injEq] at there
      rcases there with old | rfl
      · exact before batch old
      · exact Time.lt_deadline time
  | gather => rw [gather_eq]; exact brisk.inTime
  | flushBuffer => rw [flushBuffer_eq]; exact brisk.inTime
  | flushOnRequest => rw [flushOnRequest, flushBuffer_eq]; exact brisk.inTime
  | restartTimer => exact brisk.inTime

theorem Brisk.alarm?_eq_none (brisk : s.Brisk) (standing : s.Standing) : s.alarm? = none := by
  cases step : s.alarm? with
  | none => rfl
  | some t =>
    have some := standing.backlog.exists_due (fire_of_alarm? step).1
    simp [Backlog.fire, brisk.held] at some

theorem Brisk.sending? (brisk : s.Brisk) (taken : s.sending? setup = some t) (easy : t.Easy) :
    t.Brisk := by
  cases action_of_sending? taken with
  | stop idle =>
    refine ⟨rfl, brisk.held, by simp [stopSending, record], fun batch there ↦ ?_⟩
    exact brisk.inTime batch (List.mem_append_right _ (by simpa [stopSending, record] using there))
  | again idle opened retries => simp [brisk.retries] at retries
  | @fresh batch rest _ idle opened noRetry parcels taken =>
    have fewer : ∀ other, .batch other ∈ rest ++ s.buffering.handing?.toList →
        s.now < other.expires :=
      fun other there ↦ brisk.inTime other (parcels ▸ .tail _ there)
    cases taken with
    | expired => exact ⟨brisk.retries, brisk.held, by simp [idle], fewer⟩
    | called => exact ⟨brisk.retries, brisk.held, easy.atOnce, fewer⟩
  | barrier idle opened noRetry parcels =>
    refine ⟨brisk.retries, brisk.held, by simp [idle], fun other there ↦ ?_⟩
    exact brisk.inTime other (parcels ▸ .tail _ there)
  | endCall busy isOver ended =>
    cases ended with
    | crashed =>
      refine ⟨rfl, ?_, by simp, fun batch there ↦ ?_⟩
      · dsimp only
        split <;> exact brisk.held
      · exact brisk.inTime batch (List.mem_append_right _ (by simpa using there))
    | delivered | abandoned => exact ⟨brisk.retries, brisk.held, by simp, brisk.inTime⟩
    | retried => simpa using easy.unretried

theorem Brisk.client? (brisk : s.Brisk) (taken : s.client? setup = some t) : t.Brisk := by
  cases action_of_client? taken with
  | @endWait wait =>
    cases wait with
    | bothLoops residual => rw [endWait_bothLoops]; exact { brisk with }
    | _ => exact { brisk with }
  | @serve request rest _ free asked served =>
    cases served with
    | flush | flushStopped =>
      rw [withBacklog_eq]
      exact
        { brisk with
          retries := by simp [Backlog.releaseAll, record, brisk.held, brisk.retries]
          held := rfl }
    | giveUp =>
      have held : { s with requests := rest }.giveUp.backlog.items = [] := by
        unfold giveUp
        split <;> exact brisk.held
      exact { brisk with held }
    | _ => exact { brisk with }

theorem Brisk.step? (brisk : s.Brisk) (standing : s.Standing) (time : 0 < setup.maxRetryTime)
    {task : Task} (taken : s.step? setup task = some t) (easy : t.Easy) : t.Brisk := by
  cases task with
  | buffering => exact brisk.buffering? time taken
  | alarm => simp [State.step?, brisk.alarm?_eq_none standing] at taken
  | sending => exact brisk.sending? taken easy
  | client => exact brisk.client? taken

/-! ## Time -/

/-- A sending loop without a step is idle. -/
theorem Brisk.idle (brisk : s.Brisk) (alive : s.sending.isOver = false)
    (quiet : s.sending? setup = none) : s.sending = .idle := by
  cases sending : s.sending with
  | idle => rfl
  | calling call => simp [State.sending?, sending, brisk.calling call sending] at quiet
  | stopped | crashed => simp [sending, Sending.isOver] at alive

/-- An open buffering loop without a step has started its timer, and the timer is not due. -/
theorem timer_of_buffering?_eq_none (running : s.buffering.running) (free : s.HandsFree)
    (lines : s.lineQueue = []) (quiet : s.buffering? setup = none) :
    s.buffering.restart = false ∧ s.now < s.buffering.flushAt := by
  simp only [State.buffering?, running, free.opened, free.handing?, free.outbox, attend?, lines,
    Bool.not_true, Bool.false_eq_true, if_false] at quiet
  split at quiet
  · simp at quiet
  next started =>
  split at quiet
  · simp at quiet
  next early => exact ⟨Bool.eq_false_iff.mpr started, Nat.lt_of_not_le early⟩

/-- The tasks come to rest only when nothing is on its way any more. -/
theorem rests_of_quiescent (brisk : s.Brisk) (standing : s.Standing) (whole : s.isTorn = false)
    (capacity : 0 < setup.channelCapacity) (quiescent : s.Quiescent setup) : s.AtRest := by
  obtain ⟨opened, running, alive, _⟩ := isTorn_eq_false.mp whole
  have idle := brisk.idle alive (quiescent .sending)
  obtain ⟨_, parcels⟩ := queues_of_sending?_eq_none opened idle (quiescent .sending)
  obtain ⟨free, outbox, lines, unasked⟩ :=
    buffering_of_buffering?_eq_none opened running capacity parcels (quiescent .buffering)
  have client := client_of_client?_eq_none (s := s) (by simpa [lines] using capacity)
    (by simp [barrierHeld, unasked, outbox, free, parcels])
    (fun residual waits ↦ by simp [standing.bothLoops residual waits] at opened) (quiescent .client)
  exact
    { client
      running
      idle
      lineQueue := lines
      flushAsked := unasked
      outbox
      handing? := free
      batchQueue := parcels
      retryQueue := brisk.retries
      backlog := by simp [brisk.held] }

/-- The flush timer of a writer at rest runs, and it is not due. -/
theorem AtRest.timer (rest : s.AtRest) (opened : s.closing = false)
    (quiescent : s.Quiescent setup) :
    s.buffering.restart = false ∧ s.now < s.buffering.flushAt :=
  timer_of_buffering?_eq_none rest.running ⟨opened, rest.handing?, rest.outbox⟩ rest.lineQueue
    (quiescent .buffering)

/-- A client that waits in a writer at rest sleeps, and time passes until it wakes up or the flush
timer goes off, whichever comes first. -/
theorem advance?_of_atRest (tidy : s.Tidy) (brisk : s.Brisk) (standing : s.Standing)
    (rest : s.AtRest) (quiescent : s.Quiescent setup) (waiting : s.clientIdle = false) :
    ∃ time, s.wait? = some (.instant time) ∧ s.now < min time s.buffering.flushAt ∧
      nanosPerMilli ∣ min time s.buffering.flushAt ∧
      s.advance? = some { s with now := min time s.buffering.flushAt } := by
  obtain ⟨time, sleeps, later⟩ := rest.client.resolve_left (by simp [waiting])
  obtain ⟨_, early⟩ := rest.timer tidy.opened quiescent
  have ahead : s.now < min time s.buffering.flushAt := by omega
  have whole : nanosPerMilli ∣ min time s.buffering.flushAt := by
    rcases Nat.le_total time s.buffering.flushAt with first | first
    · rw [Nat.min_eq_left first]
      exact (tidy.asleep time sleeps).2
    · rw [Nat.min_eq_right first]
      exact tidy.timer
  have alarm : s.backlog.alarm = none := by
    rw [standing.backlog.alarm, brisk.held]
    split <;> rfl
  have times : s.wakeUpTimes = [time, s.buffering.flushAt] := by
    simp [wakeUpTimes, sleeps, rest.running, rest.handing?, rest.idle, alarm]
  refine ⟨time, sleeps, ahead, whole, ?_⟩
  simp [State.advance?, times, List.min?, Time.wakeUp_eq whole, Nat.max_eq_right ahead.le]

theorem Tidy.call (tidy : s.Tidy) (calls : List ClientCall) :
    { s with requests := calls.flatMap ClientCall.requests, closed? := none }.Tidy :=
  { tidy with
    requests := fun request there ↦ by
      obtain ⟨call, _, inCall⟩ := List.mem_flatMap.mp there
      exact ClientCall.keepsOpen_of_mem inCall }

theorem Tidy.advance? (tidy : s.Tidy) (brisk : s.Brisk) (standing : s.Standing) (rest : s.AtRest)
    (quiescent : s.Quiescent setup) (waiting : s.clientIdle = false)
    (advanced : s.advance? = some t) : t.Tidy := by
  obtain ⟨time, sleeps, _, whole, advance⟩ :=
    advance?_of_atRest tidy brisk standing rest quiescent waiting
  obtain rfl := Option.some.inj (advanced.symm.trans advance)
  refine { tidy with whole, asleep := fun other sleeping ↦ ?_, timely := Nat.min_le_right _ _ }
  obtain rfl : time = other := by simpa [sleeps] using sleeping
  exact ⟨Nat.min_le_left _ _, (tidy.asleep time sleeps).2⟩

theorem Brisk.advance? (brisk : s.Brisk) (rest : s.AtRest) (advanced : s.advance? = some t) :
    t.Brisk := by
  obtain ⟨time, _, rfl⟩ := Option.map_eq_some_iff.mp advanced
  exact
    { retries := brisk.retries
      held := brisk.held
      calling := by simp [rest.idle]
      inTime := by simp [rest.batchQueue, rest.handing?] }

end State

/-! ## Transports that make it easy -/

namespace Setup

/-- Every call of the transport ends at the instant at which it begins. -/
def IsPrompt (setup : Setup) : Prop :=
  ∀ asked, ∃ error?, setup.reply asked = .answer 0 error?

/-- No failure of the transport is worth a retry. -/
def IsFinal (setup : Setup) : Prop :=
  ∀ asked delay error, setup.reply asked = .answer delay (some error) →
    ∀ told, setup.wantsRetry told error = false

theorem IsPrompt.neverCrashes {setup : Setup} (prompt : setup.IsPrompt) : setup.NeverCrashes := by
  intro asked delay
  obtain ⟨error?, answer⟩ := prompt asked
  simp [answer]

end Setup

namespace State

variable {setup : Setup} {s t : State}

/-- A transport whose failures are final leads to no retry. -/
theorem retriesScheduled_of_step? (final : setup.IsFinal) {task : Task}
    (taken : s.step? setup task = some t) :
    t.stats.retriesScheduled = s.stats.retriesScheduled := by
  by_cases other : task = .sending
  · subst other
    cases action_of_sending? taken with
    | again idle opened retries taken | fresh idle opened noRetry parcels taken =>
      cases taken <;> rfl
    | endCall busy isOver ended =>
      cases ended with
      | retried failure wanted => simp [final _ _ _ failure] at wanted
      | _ => rfl
    | _ => rfl
  · rw [(sendingSide_of_step? other taken).2.2]

/-- As far as the clock goes, a call that ends at once takes no time. -/
theorem endsAt_le_of_takenUp (prompt : setup.IsPrompt) (whole : nanosPerMilli ∣ s.now)
    (inRange : s.now < Time.horizon) (idle : s.sending = .idle) {batch : Batch}
    (taken : TakenUp setup s batch t) (call : Call) (busy : t.sending = .calling call) :
    call.endsAt ≤ t.now := by
  cases taken with
  | expired => simp [idle] at busy
  | called inTime =>
    obtain ⟨error?, atOnce⟩ := prompt s.calls
    obtain rfl := Sending.calling.inj busy
    have now : Time.deadline s.now 0 = s.now := Time.deadline_eq inRange
    simp [atOnce, Reply.delay, now, Time.wakeUp_eq whole]

theorem Easy.start (started : start? setup = .ok s) : s.Easy := by
  rw [(start?_eq_ok started).2]
  constructor <;> simp [State.start, record]

theorem Easy.step? (easy : s.Easy) (prompt : setup.IsPrompt) (whole : nanosPerMilli ∣ s.now)
    (inRange : s.now < Time.horizon) {task : Task} (taken : s.step? setup task = some t)
    (unretried : t.stats.retriesScheduled = 0) : t.Easy := by
  refine ⟨unretried, ?_⟩
  by_cases other : task = .sending
  · subst other
    cases action_of_sending? taken with
    | stop => simp [stopSending, record]
    | again idle opened retries taken =>
      exact endsAt_le_of_takenUp prompt (by exact whole) (by exact inRange) (by exact idle) taken
    | fresh idle opened noRetry parcels taken =>
      exact endsAt_le_of_takenUp prompt (by exact whole) (by exact inRange) (by exact idle) taken
    | barrier idle => simp [idle]
    | endCall busy isOver ended => cases ended <;> simp
  · obtain ⟨sending, _⟩ := sendingSide_of_step? other taken
    rw [sending, now_of_step? taken]
    exact easy.atOnce

theorem Easy.advance? (easy : s.Easy) (advanced : s.advance? = some t) : t.Easy := by
  obtain ⟨time, _, rfl⟩ := Option.map_eq_some_iff.mp advanced
  exact ⟨easy.unretried, fun call busy ↦ (easy.atOnce call busy).trans (Nat.le_max_left _ _)⟩

end State

theorem Reachable.retriesScheduled_eq_zero {setup : Setup} {s : State}
    (reachable : Reachable setup s) (final : setup.IsFinal) : s.stats.retriesScheduled = 0 := by
  induction reachable with
  | start started =>
    rw [(start?_eq_ok started).2]
    rfl
  | move _ move ih =>
    cases move with
    | step task taken => exact (State.retriesScheduled_of_step? final taken).trans ih
    | pass now later => exact ih
    | ask requests idle => exact ih

end LineDelivery.Pipeline
