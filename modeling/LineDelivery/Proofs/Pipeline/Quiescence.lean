import LineDelivery.Proofs.Pipeline.Whole

/-!
# No deadlock

When no task of an open writer has a step and no call of the transport is in progress, nothing is
stuck: the queues are empty, the loops wait for something new, and the client waits for nothing but
the end of a sleep. What the backlog holds is not due yet and has not expired.
-/

namespace LineDelivery.Pipeline

namespace State

variable {setup : Setup} {s : State}

/-- No task can do anything at the present instant. -/
def Quiescent (setup : Setup) (s : State) : Prop :=
  ∀ task, s.step? setup task = none

/-- Nothing waits that could go on. -/
structure AtRest (s : State) : Prop where
  /-- The client is between two calls, or sleeps. -/
  client : s.clientIdle ∨ ∃ time, s.wait? = some (.instant time) ∧ s.now < time
  running : s.buffering.running
  idle : s.sending = .idle
  lineQueue : s.lineQueue = []
  flushAsked : s.flushAsked = false
  outbox : s.buffering.outbox = []
  handing? : s.buffering.handing? = none
  batchQueue : s.batchQueue = []
  retryQueue : s.retryQueue = []
  backlog : ∀ item ∈ s.backlog.items,
    s.now < item.retryTime ∧ item.retryTime ≤ item.batch.expires

theorem queues_of_sending?_eq_none (opened : s.closing = false) (idle : s.sending = .idle)
    (quiet : s.sending? setup = none) : s.retryQueue = [] ∧ s.batchQueue = [] := by
  simp only [sending?, idle, opened, Bool.false_eq_true, if_false, nextParcel?] at quiet
  split at quiet
  · simp at quiet
  · simp at quiet
  · simp at quiet
  · next retries parcels => exact ⟨retries, parcels⟩

theorem handing?_of_hand? (capacity : 0 < setup.channelCapacity) (parcels : s.batchQueue = [])
    (parcel : Parcel) : s.hand? setup parcel ≠ none := by
  unfold hand?
  split
  · simp
  · simp [parcels, capacity]

/-- A quiet buffering loop that hands over nothing has nothing to take, and its timer is not due. -/
theorem waits_of_buffering?_eq_none (running : s.buffering.running)
    (free : s.buffering.handing? = none) (quiet : s.buffering? setup = none) :
    s.buffering.outbox = [] ∧ s.lineQueue = [] ∧ s.now < s.buffering.flushAt ∧
      s.flushAsked = false := by
  simp only [buffering?, running, Bool.not_true, Bool.false_eq_true, if_false] at quiet
  split at quiet
  · simp at quiet
  split at quiet
  · next handing => simp [free] at handing
  · simp at quiet
  · next outbox =>
    split at quiet
    · simp at quiet
    unfold attend? at quiet
    split at quiet
    · simp at quiet
    next lines =>
    split at quiet
    · simp at quiet
    next early =>
    split at quiet
    · simp at quiet
    · next unasked =>
      exact ⟨outbox, lines, Nat.lt_of_not_le early, Bool.eq_false_iff.mpr unasked⟩

/-- A quiet buffering loop has nothing to hand over and nothing to take. -/
theorem buffering_of_buffering?_eq_none (opened : s.closing = false)
    (running : s.buffering.running) (capacity : 0 < setup.channelCapacity)
    (parcels : s.batchQueue = []) (quiet : s.buffering? setup = none) :
    s.buffering.handing? = none ∧ s.buffering.outbox = [] ∧ s.lineQueue = [] ∧
      s.flushAsked = false := by
  have free : s.buffering.handing? = none := by
    cases handing : s.buffering.handing? with
    | none => rfl
    | some parcel =>
      simp only [buffering?, running, opened, handing, Bool.not_true, Bool.false_eq_true, if_false]
        at quiet
      exact absurd quiet (handing?_of_hand? capacity parcels parcel)
  obtain ⟨outbox, lines, _, unasked⟩ := waits_of_buffering?_eq_none running free quiet
  exact ⟨free, outbox, lines, unasked⟩

/-- With room in the line queue no call of a client has to wait at its beginning. -/
theorem serve?_ne_none (capacity : s.lineQueue.length < setup.channelCapacity) (request : Request) :
    s.serve? setup request ≠ none := by
  cases request with
  | line chunk =>
    simp only [serve?, offerLine?, capacity, if_true]
    split
    · simp
    split
    · simp
    split <;> simp
  | _ => simp [serve?]

theorem client_of_client?_eq_none (capacity : s.lineQueue.length < setup.channelCapacity)
    (passed : s.barrierHeld = false)
    (ended : ∀ residual, s.wait? = some (.bothLoops residual) → s.waitIsOver (.bothLoops residual))
    (quiet : s.client? setup = none) :
    s.clientIdle ∨ ∃ time, s.wait? = some (.instant time) ∧ s.now < time := by
  unfold client? at quiet
  split at quiet
  · next wait waits =>
    have waiting : s.waitIsOver wait = false := by simpa using quiet
    cases wait with
    | barrier => simp [waitIsOver, passed] at waiting
    | bothLoops residual => simp [ended residual waits] at waiting
    | instant time => exact .inr ⟨time, waits, by simpa [waitIsOver] using waiting⟩
  · next free requests => exact .inl (by simp [clientIdle, free, requests])
  · exact absurd quiet (serve?_ne_none (by exact capacity) _)

end State

/-- An open writer never gets stuck, and no retry is overdue. -/
theorem Reachable.atRest {setup : Setup} {s : State} (calm : setup.NeverCrashes)
    (reachable : Reachable setup s) (opened : s.closing = false) (quiescent : s.Quiescent setup)
    (silent : ∀ call, s.sending ≠ .calling call) : s.AtRest := by
  have capacity := reachable.channelCapacity_pos
  have standing := reachable.standing
  obtain ⟨_, running, alive, unclosed⟩ :=
    State.isTorn_eq_false.mp (reachable.isTorn_eq_false calm opened)
  have idle : s.sending = .idle := by
    cases sending : s.sending with
    | idle => rfl
    | calling call => exact absurd sending (silent call)
    | stopped => simp [sending, Sending.isOver] at alive
    | crashed => simp [sending, Sending.isOver] at alive
  obtain ⟨retries, parcels⟩ :=
    State.queues_of_sending?_eq_none opened idle (quiescent .sending)
  obtain ⟨free, outbox, lines, unasked⟩ :=
    State.buffering_of_buffering?_eq_none opened running capacity parcels (quiescent .buffering)
  have passed : s.barrierHeld = false := by
    simp [State.barrierHeld, unasked, outbox, free, parcels]
  have room : s.lineQueue.length < setup.channelCapacity := by simpa [lines] using capacity
  have ended (residual) (waits : s.wait? = some (.bothLoops residual)) :
      s.waitIsOver (.bothLoops residual) := by
    simp [standing.bothLoops residual waits] at opened
  have alarm : s.backlog.alarmDue s.now = false := by
    simpa [State.step?, State.alarm?] using quiescent .alarm
  exact
    { client := State.client_of_client?_eq_none room passed ended (quiescent .client)
      running
      idle
      lineQueue := lines
      flushAsked := unasked
      outbox
      handing? := free
      batchQueue := parcels
      retryQueue := retries
      backlog := fun item held ↦
        ⟨standing.backlog.lt_retryTime unclosed alarm held, standing.backlog.inTime item held⟩ }

theorem atRest_refused :
    State.refused.backlog.items.length = 1 ∧ State.refused.AtRest := by
  refine ⟨by decide +kernel, Reachable.atRest Setup.refusing_neverCrashes ?_ rfl ?_ ?_⟩
  · exact Reachable.refused
  · intro task
    cases task <;> rfl
  · intro call
    have idle : State.refused.sending = .idle := rfl
    simp [idle]

end LineDelivery.Pipeline
