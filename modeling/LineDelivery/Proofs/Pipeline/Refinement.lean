import LineDelivery.Proofs.Pipeline.Foresight

/-!
# A writer is a buffer with a clock

Two loops, three queues, a barrier and a timer that is started anew at two places come to no more
than one buffer with a clock, if the transport takes no time and no failure leads to a retry. In
whatever order the tasks take their steps, the transport is given what such a buffer sends, at the
instants at which it sends it; and whatever such a buffer may send, the tasks can come to. Of the
options only the sizes of a batch and the flush interval matter, and the capacity of the queues does
not.
-/

namespace LineDelivery.Pipeline

variable {setup : Setup} {s t : State}

/-- The buffer with a clock that such a setup makes of a writer. -/
def Setup.sequential (setup : Setup) (interval : 0 < setup.flushInterval) : TimedBuffer :=
  .start setup.options.batchSize.toNat setup.options.maxBatchBytes.toNat setup.flushInterval
    interval

/-! ## On course -/

/-- Of all that is asked for in these calls the client has asked for some and has still to ask for
the rest. Through the former such a buffer may have become what the writer will be when the client
wakes up. -/
structure OnCourse (setup : Setup) (interval : 0 < setup.flushInterval) (called : List ClientCall)
    (s : State) : Prop where
  reachable : Reachable setup s
  tidy : s.Tidy
  brisk : s.Brisk
  course : ∃ asked, asked ++ s.requests = called.flatMap ClientCall.requests ∧
    (setup.sequential interval).Becomes asked (s.woken interval)

namespace OnCourse

variable {interval : 0 < setup.flushInterval} {called : List ClientCall}

theorem start (started : start? setup = .ok s) : OnCourse setup interval [] s where
  reachable := .start started
  tidy := by
    rw [(start?_eq_ok started).2]
    exact
      { whole := Nat.dvd_zero _
        timer := setup.dvd_flushInterval
        opened := rfl
        requests := by simp [State.start, State.record]
        asked := by simp [State.start, State.record]
        asleep := by simp [State.start, State.record]
        timely := Nat.zero_le _ }
  brisk := by
    rw [(start?_eq_ok started).2]
    constructor <;> simp [State.start, State.record, Backlog.empty]
  course := by
    rw [(start?_eq_ok started).2]
    exact ⟨[], rfl, .start⟩

theorem now_le (onCourse : OnCourse setup interval called s) : s.now ≤ endOf called := by
  obtain ⟨asked, requests, becomes⟩ := onCourse.course
  calc
    s.now ≤ (s.woken interval).now := State.now_le_woken interval onCourse.tidy
    _ = asked.foldl Request.returnsAt 0 := becomes.now_eq
    _ ≤ s.requests.foldl Request.returnsAt (asked.foldl Request.returnsAt 0) :=
      Request.le_foldl_returnsAt _ _
    _ = endOf called := by rw [endOf_eq, ← requests, List.foldl_append]

theorem isTorn_eq_false (onCourse : OnCourse setup interval called s)
    (calm : setup.NeverCrashes) : s.isTorn = false :=
  onCourse.reachable.isTorn_eq_false calm onCourse.tidy.opened

theorem running (onCourse : OnCourse setup interval called s) (calm : setup.NeverCrashes) :
    s.buffering.running :=
  (State.isTorn_eq_false.mp (onCourse.isTorn_eq_false calm)).2.1

theorem rests (onCourse : OnCourse setup interval called s) (calm : setup.NeverCrashes)
    (quiescent : s.Quiescent setup) : s.AtRest :=
  State.rests_of_quiescent onCourse.brisk onCourse.reachable.standing
    (onCourse.isTorn_eq_false calm) onCourse.reachable.channelCapacity_pos quiescent

theorem turned (onCourse : OnCourse setup interval called s) (calm : setup.NeverCrashes)
    {task : Task} (taken : s.step? setup task = some t) (easy : t.Easy) :
    State.Turned interval s t :=
  State.turned_of_step? interval onCourse.tidy onCourse.brisk onCourse.reachable.standing
    (onCourse.isTorn_eq_false calm) calm taken easy.unretried

/-- Each move of the tasks and the clock keeps the course. -/
theorem move (onCourse : OnCourse setup interval called s) (calm : setup.NeverCrashes)
    (time : 0 < setup.maxRetryTime) (move : ClockedMove setup s t) (easy : t.Easy) :
    OnCourse setup interval called t := by
  have standing := onCourse.reachable.standing
  have reachable := onCourse.reachable.move move.move
  obtain ⟨asked, all, becomes⟩ := onCourse.course
  cases move with
  | step task taken =>
    refine
      { reachable
        tidy := onCourse.tidy.step? standing taken
        brisk := onCourse.brisk.step? standing time taken easy
        course := ?_ }
    cases onCourse.turned calm taken easy with
    | same requests woken => exact ⟨asked, requests ▸ all, woken ▸ becomes⟩
    | expire expires requests woken =>
      have due := expires.flushAt_woken interval onCourse.tidy
      exact ⟨asked, requests ▸ all, woken ▸ becomes.expire due⟩
    | @serve request requests woken =>
      refine ⟨asked ++ [request], ?_, woken ▸ becomes.serve request⟩
      rw [List.append_assoc, List.singleton_append, ← requests, all]
  | wait waiting quiescent advanced =>
    have rest := onCourse.rests calm quiescent
    have woken := State.woken_of_advance? interval onCourse.tidy onCourse.brisk standing rest
      quiescent waiting advanced
    have requests : t.requests = s.requests := by
      obtain ⟨_, _, rfl⟩ := Option.map_eq_some_iff.mp advanced
      rfl
    exact
      { reachable
        tidy := onCourse.tidy.advance? onCourse.brisk standing rest quiescent waiting advanced
        brisk := onCourse.brisk.advance? rest advanced
        course := ⟨asked, requests ▸ all, woken ▸ becomes⟩ }

/-- More is asked of the writer, and of the buffer. -/
theorem call (onCourse : OnCourse setup interval called s) (idle : s.clientIdle)
    (next : List ClientCall) :
    OnCourse setup interval (called ++ next)
      { s with requests := next.flatMap ClientCall.requests, closed? := none } where
  reachable := onCourse.reachable.move (.ask _ idle)
  tidy := onCourse.tidy.call next
  brisk := { onCourse.brisk with }
  course := by
    obtain ⟨asked, all, becomes⟩ := onCourse.course
    obtain rfl : asked = called.flatMap ClientCall.requests := by
      simpa [(State.clientIdle_iff.mp idle).1] using all
    exact ⟨_, List.flatMap_append.symm, becomes⟩

/-! ## Coming to an end -/

theorem exists_move (onCourse : OnCourse setup interval called s) (calm : setup.NeverCrashes)
    (undone : ¬ s.IsDone setup) : ∃ t, ClockedMove setup s t := by
  by_cases quiescent : s.Quiescent setup
  · have waiting : s.clientIdle = false :=
      Bool.eq_false_iff.mpr fun idle ↦ undone ⟨idle, quiescent⟩
    have rest := onCourse.rests calm quiescent
    obtain ⟨time, _, _, _, advanced⟩ := State.advance?_of_atRest onCourse.tidy onCourse.brisk
      onCourse.reachable.standing rest quiescent waiting
    exact ⟨_, .wait waiting quiescent advanced⟩
  · obtain ⟨task, step⟩ := not_forall.mp quiescent
    obtain ⟨t, taken⟩ := Option.ne_none_iff_exists'.mp step
    exact ⟨t, .step task taken⟩

/-- A move takes work off this instant, or time passes. -/
theorem progress (onCourse : OnCourse setup interval called s) (calm : setup.NeverCrashes)
    (move : ClockedMove setup s t) :
    s.now < t.now ∨ t.now = s.now ∧ t.work setup < s.work setup := by
  have standing := onCourse.reachable.standing
  cases move with
  | step task taken =>
    exact .inr ⟨State.now_of_step? taken, State.work_lt_of_step? interval standing taken⟩
  | wait waiting quiescent advanced =>
    have rest := onCourse.rests calm quiescent
    obtain ⟨time, _, later, _, advance⟩ := State.advance?_of_atRest onCourse.tidy onCourse.brisk
      standing rest quiescent waiting
    obtain rfl := Option.some.inj (advanced.symm.trans advance)
    exact .inl later

/-- The clock does not go past the end of the calls, and there are only so many steps at each
instant. -/
theorem decreases (onCourse : OnCourse setup interval called s) (calm : setup.NeverCrashes)
    (move : ClockedMove setup s t) (after : OnCourse setup interval called t) :
    Prod.Lex (· < ·) (· < ·) (endOf called - t.now, t.work setup)
      (endOf called - s.now, s.work setup) := by
  have notPast := after.now_le
  rcases onCourse.progress calm move with later | ⟨same, less⟩
  · exact .left _ _ (by omega)
  · rw [same]
    exact .right _ less

/-- Once all has been done, the transport was given what such a buffer sends. -/
theorem sends (onCourse : OnCourse setup interval called s) (calm : setup.NeverCrashes)
    (done : s.IsDone setup) : (setup.sequential interval).Sends called s.sent := by
  have rest := onCourse.rests calm done.quiescent
  obtain ⟨started, early⟩ := rest.timer onCourse.tidy.opened done.quiescent
  obtain ⟨asked, all, becomes⟩ := onCourse.course
  obtain ⟨none, free⟩ := State.clientIdle_iff.mp done.idle
  obtain rfl : asked = called.flatMap ClientCall.requests := by simpa [none] using all
  have woken : s.woken interval = s.underWay interval := by
    simp [State.woken, free, State.caughtUp, rest.lineQueue, rest.flushAsked]
  refine ⟨_, woken ▸ becomes, ?_, ?_⟩
  · simpa [State.underWay, started] using early
  · simp [State.underWay, State.onWay_of_atRest rest]

end OnCourse

/-! ## Whatever the tasks do -/

/-- Whatever the tasks do while a client makes these calls, no retry is scheduled, and each call of
the transport is over at the instant at which it began. -/
def Effortless (setup : Setup) (s : State) (calls : List ClientCall) : Prop :=
  ∀ called t, called <+: calls → Plays setup s called t → t.Easy

section

variable {calls called : List ClientCall} (interval : 0 < setup.flushInterval)

theorem Plays.onCourse (plays : Plays setup s called t) (started : start? setup = .ok s)
    (calm : setup.NeverCrashes) (time : 0 < setup.maxRetryTime)
    (easy : Effortless setup s calls) (first : called <+: calls) :
    OnCourse setup interval called t := by
  induction plays with
  | start => exact .start started
  | call before idle next ih => exact (ih ((List.prefix_append _ _).trans first)).call idle next
  | move before move ih => exact (ih first).move calm time move (easy _ _ first (before.move move))

/-- The calls come to an end. -/
theorem Plays.finishes {t : State} (plays : Plays setup s called t) (started : start? setup = .ok s)
    (calm : setup.NeverCrashes) (time : 0 < setup.maxRetryTime)
    (easy : Effortless setup s calls) (first : called <+: calls) :
    Finally setup (fun u ↦ u.IsDone setup ∧ OnCourse setup interval called u) t := by
  have onCourse := plays.onCourse interval started calm time easy first
  by_cases done : t.IsDone setup
  · exact .now ⟨done, onCourse⟩
  · obtain ⟨u, move⟩ := onCourse.exists_move calm done
    refine .next move fun v move ↦ ?_
    have after := (plays.move move).onCourse interval started calm time easy first
    have decreases := onCourse.decreases calm move after
    exact (plays.move move).finishes started calm time easy first
termination_by (endOf called - t.now, t.work setup)
decreasing_by exact decreases

/-- Calls are effortless if the transport answers at once and no failure is worth a retry, as long
as the clock has their instants. -/
theorem effortless_of_isPrompt (started : start? setup = .ok s) (prompt : setup.IsPrompt)
    (final : setup.IsFinal) (time : 0 < setup.maxRetryTime)
    (inRange : endOf calls < Time.horizon) : Effortless setup s calls := by
  intro called t first plays
  have interval := (Reachable.start started).flushInterval_pos
  have both : t.Easy ∧ OnCourse setup interval called t := by
    induction plays with
    | start => exact ⟨.start started, .start started⟩
    | call before idle next ih =>
      obtain ⟨easy, onCourse⟩ := ih ((List.prefix_append _ _).trans first)
      exact ⟨{ easy with }, onCourse.call idle next⟩
    | @move called t u before move ih =>
      obtain ⟨easy, onCourse⟩ := ih first
      have soon := (onCourse.now_le.trans (endOf_le first)).trans_lt inRange
      have unretried := (onCourse.reachable.move move.move).retriesScheduled_eq_zero final
      have still : u.Easy := by
        cases move with
        | step task taken => exact easy.step? prompt onCourse.tidy.whole soon taken unretried
        | wait waiting quiescent advanced => exact easy.advance? advanced
      exact ⟨still, onCourse.move prompt.neverCrashes time move still⟩
  exact both.1

end

/-! ## What the tasks can come to -/

namespace State

/-- The loops have done all but what their timer may have for them, and the client can go on. -/
structure Ready (s : State) : Prop extends s.AtEase where
  idle : s.sending = .idle
  batchQueue : s.batchQueue = []
  awake : s.wait? = none

theorem Ready.woken (ready : s.Ready) (interval : 0 < setup.flushInterval) :
    s.woken interval = s.underWay interval := by
  simp only [State.woken, ready.awake, ready.toAtEase.caughtUp interval]

theorem Ready.sent (ready : s.Ready) (interval : 0 < setup.flushInterval) :
    (s.woken interval).sent = s.sent := by
  rw [ready.woken interval]
  simp [underWay, onWay, ready.batchQueue, ready.free.handing?, ready.free.outbox]

end State

namespace OnCourse

variable {interval : 0 < setup.flushInterval} {called : List ClientCall}

end OnCourse

section

variable {calls called : List ClientCall} (interval : 0 < setup.flushInterval)

end

/-- A transport that answers at once; it refuses the second batch for good. -/
def Setup.strict : Setup where
  options := { batchSize := 2 }
  reply asked := .answer 0 (if asked = 1 then some (.server 400 "bad" none) else none)
  verdict? := none
  delay _ _ _ := 1000000000

end LineDelivery.Pipeline
