import LineDelivery.Proofs.Pipeline.Counters
import LineDelivery.Proofs.Pipeline.Ending
import LineDelivery.Proofs.Pipeline.Whole

/-!
# The balance of retries

As long as the backlog is open, every retry that was scheduled is held there, or was removed from it
or released. A closed backlog takes nothing in: the retry of a call that was in progress when the
writer was closed is counted and lost. There is at most one such call, and closing answers with the
lines that are held for good.
-/

namespace LineDelivery.Pipeline

namespace Event

def isRelease : Event → Bool
  | backlog (.released _) => true
  | _ => false

def isSkip : Event → Bool
  | backlog (.removed _ _) => true
  | _ => false

end Event

/-- How many batches the backlog handed back to the sending loop. -/
abbrev releasedIn (events : List Event) : Nat :=
  events.countP Event.isRelease

/-- How many batches the backlog had no room for. -/
abbrev skippedIn (events : List Event) : Nat :=
  events.countP Event.isSkip

section

variable (newer older : List Event)

theorem releasedIn_append : releasedIn (newer ++ older) = releasedIn newer + releasedIn older :=
  List.countP_append

theorem skippedIn_append : skippedIn (newer ++ older) = skippedIn newer + skippedIn older :=
  List.countP_append

end

/-! ## As long as nothing is lost -/

namespace Event

variable {event : Event}

theorem IsAside.isRetry (aside : event.IsAside) : event.isRetry = false := by
  cases event <;> first | rfl | exact aside.elim

theorem IsAside.isRelease (aside : event.IsAside) : event.isRelease = false := by
  cases event with
  | backlog event => cases event <;> first | rfl | exact aside.elim
  | _ => rfl

theorem IsAside.isSkip (aside : event.IsAside) : event.isSkip = false := by
  cases event with
  | backlog event => cases event <;> first | rfl | exact aside.elim
  | _ => rfl

end Event

namespace Ledger

variable {setup : Setup} {l m : Ledger}

/-- Every retry that was scheduled was released or skipped, or is held. -/
def Balanced (l : Ledger) : Prop :=
  l.torn = false →
    retriesIn l.events = releasedIn l.events + skippedIn l.events + Multiset.card l.held

theorem Takes.held_eq {batch : Batch} (takes : l.Takes batch m) : m.held = l.held := by
  cases takes <;> rfl

theorem Step.balanced (step : Step setup l m) (balanced : l.Balanced) : m.Balanced := by
  intro whole
  have before := balanced (step.torn_eq_false whole)
  unfold retriesIn releasedIn skippedIn at before ⊢
  cases step with
  | aside event aside =>
    simpa [List.countP_cons, aside.isRetry, aside.isRelease, aside.isSkip] using before
  | expire idle takes =>
    simpa [takes.events_eq, takes.held_eq, countP_reports, List.countP_cons, Event.isRetry,
      Event.isRelease, Event.isSkip] using before
  | call call idle takes attempt =>
    simpa [takes.events_eq, takes.held_eq, List.countP_cons, Event.isRetry, Event.isRelease,
      Event.isSkip] using before
  | crash => simp at whole
  | retry delay busy failure wanted left =>
    simp [countP_reports, List.countP_cons, Event.isRetry, Event.isRelease, Event.isSkip, before]
    omega
  | release held =>
    simp [List.countP_cons, Event.isRetry, Event.isRelease, Event.isSkip, before, held]
    omega
  | remove limit held =>
    simp [List.countP_cons, Event.isRetry, Event.isRelease, Event.isSkip, before, held]
    omega
  | tear => simp at whole
  | stop idle torn => simp [torn] at whole
  | lose torn => simp [torn] at whole
  | _ =>
    simpa [countP_reports, List.countP_cons, Event.isRetry, Event.isRelease, Event.isSkip]
      using before

theorem balanced_opening {event : Event} (aside : event.IsAside) : (opening event).Balanced := by
  simp [Balanced, opening, aside.isRetry, aside.isRelease, aside.isSkip]

theorem Balanced.steps (balanced : l.Balanced) (steps : Steps setup l m) : m.Balanced := by
  induction steps with
  | refl => exact balanced
  | tail _ step ih => exact step.balanced ih

end Ledger

/-! ## From closing on -/

namespace State

variable {setup : Setup} {s t u : State}

/-- How many calls of the transport are in progress. -/
def callsInProgress (s : State) : Nat :=
  s.sending.batch?.toList.length

/-- The writer is closing, with a backlog that is closed. -/
structure Shut (s : State) : Prop where
  closing : s.closing
  closed : s.backlog.closed
  sound : s.backlog.Sound

/-- Nothing has left the backlog in the meantime, and what was scheduled since comes from calls that
were in progress. -/
def Subsides (s t : State) : Prop :=
  ∃ since, t.events = since ++ s.events ∧ releasedIn since = 0 ∧ skippedIn since = 0 ∧
    retriesIn since + t.callsInProgress ≤ s.callsInProgress

theorem Subsides.refl (s : State) : s.Subsides s :=
  ⟨[], rfl, rfl, rfl, (Nat.zero_add _).le⟩

theorem Subsides.trans (first : s.Subsides t) (second : t.Subsides u) : s.Subsides u := by
  obtain ⟨earlier, eventsEarlier, noneReleased, noneSkipped, callsEarlier⟩ := first
  obtain ⟨later, eventsLater, noneReleasedLater, noneSkippedLater, callsLater⟩ := second
  refine ⟨later ++ earlier, ?_, ?_, ?_, ?_⟩
  · rw [eventsLater, eventsEarlier, List.append_assoc]
  · rw [releasedIn_append, noneReleased, noneReleasedLater]
  · rw [skippedIn_append, noneSkipped, noneSkippedLater]
  · rw [retriesIn_append]
    omega

/-- New events, and the calls that are in progress with them. -/
theorem subsides_of_history (block : List Event)
    (history : t.history = s.stamped block ++ s.history) (released : releasedIn block = 0)
    (skipped : skippedIn block = 0)
    (calls : retriesIn block + t.callsInProgress ≤ s.callsInProgress) : s.Subsides t :=
  ⟨block, events_of_history history, released, skipped, calls⟩

namespace Shut

theorem buffering? (shut : s.Shut) (taken : s.buffering? setup = some t) :
    t.backlog = s.backlog ∧ s.Subsides t := by
  have closing := shut.closing
  cases action_of_buffering? taken with
  | stop =>
    exact ⟨rfl, subsides_of_history [.bufferingStopped s.buffering.buffer.lineCount] rfl rfl rfl
      (Nat.zero_add _).le⟩
  | enqueue opened => simp [opened] at closing
  | beginHandOver opened => simp [opened] at closing
  | restartTimer free => simp [free.opened] at closing
  | gather free => simp [free.opened] at closing
  | flushBuffer free => simp [free.opened] at closing
  | flushOnRequest free => simp [free.opened] at closing

/-- The retry of a call that ends now is counted, but the backlog takes nothing in. -/
theorem callEnded (shut : s.Shut) {call : Call} (busy : s.sending = .calling call)
    (ended : CallEnded setup s call t) : t.backlog = s.backlog ∧ s.Subsides t := by
  have one : s.callsInProgress = 1 := by simp [callsInProgress, busy, Sending.batch?]
  cases ended with
  | crashed =>
    refine ⟨?_, subsides_of_history [.crashed call.batch] rfl rfl rfl (Nat.zero_le _)⟩
    rw [if_pos shut.closing, shut.sound.close_eq_self shut.closed]
  | delivered => exact ⟨rfl, subsides_of_history _ rfl rfl rfl (Nat.zero_le _)⟩
  | abandoned =>
    refine ⟨rfl, subsides_of_history _ rfl ?_ ?_ ?_⟩ <;>
      simp [countP_reports, Event.isRelease, Event.isSkip, Event.isRetry, callsInProgress,
        Sending.batch?]
  | @retried took error delay added failure wanted left isDelay isAdded =>
    have ignored : added = (s.backlog, []) := by simp [isAdded, Backlog.add, shut.closed]
    refine ⟨congrArg Prod.fst ignored, subsides_of_history _ rfl ?_ ?_ ?_⟩ <;>
      simp [ignored, countP_reports, List.countP_cons, Event.isRelease, Event.isSkip, Event.isRetry,
        callsInProgress, Sending.batch?, busy]

theorem sending? (shut : s.Shut) (taken : s.sending? setup = some t) :
    t.backlog = s.backlog ∧ s.Subsides t := by
  have closing := shut.closing
  cases action_of_sending? taken with
  | stop =>
    exact ⟨shut.sound.close_eq_self shut.closed,
      subsides_of_history [.sendingStopped] rfl rfl rfl (Nat.zero_le _)⟩
  | again idle opened => simp [opened] at closing
  | fresh idle opened => simp [opened] at closing
  | barrier idle opened => simp [opened] at closing
  | endCall busy isOver ended => exact shut.callEnded busy ended

theorem served (shut : s.Shut) {request : Request} (served : Served setup s request t) :
    t.backlog = s.backlog ∧ s.Subsides t := by
  have closing := shut.closing
  have same := shut.sound.close_eq_self shut.closed
  cases served with
  | refused =>
    exact ⟨rfl, subsides_of_history [.refused] rfl rfl rfl (Nat.zero_add _).le⟩
  | lost filled opened => simp [opened] at closing
  | accepted filled opened => simp [opened] at closing
  | unencodable error =>
    refine ⟨rfl, subsides_of_history _ rfl ?_ ?_ ?_⟩ <;> split <;>
      simp [Event.isRelease, Event.isSkip, Event.isRetry, callsInProgress]
  | flushStopped opened => simp [opened] at closing
  | flush opened => simp [opened] at closing
  | close => exact ⟨same, .refl s⟩
  | closeAgain =>
    exact ⟨same, subsides_of_history [.stopped s.stats s.backlog.size] rfl rfl rfl
      (Nat.zero_add _).le⟩
  | giveUp =>
    refine ⟨?_, .refl s⟩
    unfold State.giveUp
    dsimp only
    split
    · exact same
    · rfl
  | _ => exact ⟨rfl, .refl s⟩

theorem client? (shut : s.Shut) (taken : s.client? setup = some t) :
    t.backlog = s.backlog ∧ s.Subsides t := by
  cases action_of_client? taken with
  | @endWait wait =>
    cases wait with
    | bothLoops residual =>
      rw [endWait_bothLoops]
      refine ⟨rfl, subsides_of_history _ rfl ?_ ?_ ?_⟩ <;> unfold endEvents <;> split <;>
        simp [Event.isRelease, Event.isSkip, Event.isRetry, callsInProgress]
    | _ => exact ⟨rfl, .refl s⟩
  | @serve request rest _ free asked served =>
    have asked : { s with requests := rest }.Shut := { shut with }
    exact asked.served served

theorem step? (shut : s.Shut) {task : Task} (taken : s.step? setup task = some t) :
    t.backlog = s.backlog ∧ s.Subsides t := by
  cases task with
  | buffering => exact shut.buffering? taken
  | alarm => simp [State.step?, alarm?_eq_none shut.sound shut.closed] at taken
  | sending => exact shut.sending? taken
  | client => exact shut.client? taken

/-- From closing on the backlog stays as it is. -/
theorem runs (shut : s.Shut) (run : Runs setup s t) :
    t.closing ∧ t.backlog = s.backlog ∧ s.Subsides t := by
  induction run with
  | refl => exact ⟨shut.closing, rfl, .refl s⟩
  | tail _ move ih =>
    obtain ⟨closing, backlog, subsides⟩ := ih
    cases move with
    | step task taken =>
      have still := step? ⟨closing, backlog ▸ shut.closed, backlog ▸ shut.sound⟩ taken
      exact ⟨closing_of_step? closing taken, still.1.trans backlog, subsides.trans still.2⟩
    | pass now later => exact ⟨closing, backlog, subsides⟩
    | ask requests idle => exact ⟨closing, backlog, subsides⟩

end Shut

/-! ## What closing answers -/

/-- What a closing has answered, or is about to, is what the writer shows. -/
structure Truthful (s : State) : Prop where
  waits : ∀ residual, s.wait? = some (.bothLoops residual) → residual = s.backlog.size
  answered : ∀ stats residual, s.closed? = some (stats, residual) →
    stats.retriesScheduled = s.stats.retriesScheduled ∧ residual = s.backlog.size

theorem Truthful.served (truthful : s.Truthful) (free : s.wait? = none)
    (closed : s.closed?.isSome → s.closing) {request : Request}
    (served : Served setup s request t) : t.Truthful := by
  have opened (answer : Stats × Nat) (found : s.closed? = some answer) : s.closing ≠ false := by
    simp [closed (by simp [found])]
  cases served with
  | flushStopped unclosed | flush unclosed =>
    rw [withBacklog_eq]
    constructor
    · simp [free, record]
    · exact fun stats residual found ↦ absurd unclosed (opened _ found)
  | close => exact ⟨by simp [Backlog.close], truthful.answered⟩
  | closeAgain =>
    exact ⟨by simp [free, finishClose, record], by simp [finishClose, record, Backlog.close]⟩
  | giveUp =>
    have size : s.giveUp.backlog.size = s.backlog.size := by
      unfold giveUp
      dsimp only
      split <;> rfl
    exact ⟨size ▸ truthful.waits, size ▸ truthful.answered⟩
  | sleep => exact ⟨by simp, truthful.answered⟩
  | _ => exact ⟨truthful.waits, truthful.answered⟩

theorem Truthful.client? (truthful : s.Truthful) (ending : s.Ending)
    (taken : s.client? setup = some t) : t.Truthful := by
  cases action_of_client? taken with
  | @endWait wait waits isOver =>
    cases wait with
    | bothLoops residual =>
      have same := truthful.waits residual waits
      rw [endWait_bothLoops]
      exact ⟨by simp, by simp [same]⟩
    | _ => exact ⟨by simp [endWait], truthful.answered⟩
  | @serve request rest _ free asked served =>
    have asked : { s with requests := rest }.Truthful := { truthful with }
    exact asked.served free (fun found ↦ (ending.joined (ending.answered found)).closing) served

theorem Truthful.step? (truthful : s.Truthful) (ending : s.Ending) (sound : s.backlog.Sound)
    {task : Task} (taken : s.step? setup task = some t) : t.Truthful := by
  by_cases other : task = .client
  · subst other
    exact truthful.client? ending taken
  · obtain ⟨wait, answer, _⟩ := clientSide_of_step? other taken
    constructor
    · intro residual waits
      rw [wait] at waits
      obtain ⟨closing, closed⟩ := ending.waits residual waits
      have shut : s.Shut := ⟨closing, closed, sound⟩
      rw [(shut.step? taken).1]
      exact truthful.waits residual waits
    · intro stats residual answered
      have ended := ending.joined (ending.answered (by simp [← answer, answered]))
      exact absurd (ended.task_eq_client sound taken) other

end State

namespace Reachable

variable {setup : Setup} {s t : State}

theorem truthful (reachable : Reachable setup s) : s.Truthful := by
  induction reachable with
  | start started =>
    rw [(start?_eq_ok started).2]
    constructor <;> simp [State.start, State.record]
  | move before move ih =>
    cases move with
    | step task taken => exact ih.step? before.ending before.standing.backlog taken
    | pass now later => exact ⟨ih.waits, ih.answered⟩
    | ask requests idle => exact ⟨ih.waits, by simp⟩

/-- The counter of retries tells how many were scheduled. -/
theorem tallied (reachable : Reachable setup s) :
    s.stats.retriesScheduled = retriesIn s.events :=
  reachable.metered.agree.retries.symm

/-- As long as nothing is lost, every retry is accounted for. -/
theorem balanced (reachable : Reachable setup s) (whole : s.isTorn = false) :
    retriesIn s.events =
      releasedIn s.events + skippedIn s.events + s.backlog.items.length := by
  have opening : (Ledger.opening
      (.started setup.options.flushInterval.toNat setup.maxRetries)).Balanced :=
    Ledger.balanced_opening trivial
  simpa [State.ledger] using opening.steps reachable.steps whole

/-- The state in which a first closing leaves the writer at once. -/
theorem eq_of_close (reachable : Reachable setup s) (opened : s.closing = false)
    (free : s.wait? = none) {rest : List Request} (asked : s.requests = .close :: rest)
    (taken : s.step? setup .client = some t) :
    t = { s with
      requests := rest
      backlog := s.backlog.close
      closing := true
      wait? := some (.bothLoops s.backlog.size) } := by
  cases State.action_of_client? taken with
  | endWait waits => simp [free] at waits
  | serve _ found served =>
    obtain ⟨rfl, rfl⟩ := List.cons.inj (asked.symm.trans found)
    cases served with
    | close => rfl
    | closeAgain joined => simp [(reachable.ending.joined joined).closing] at opened

/-- When a closing comes back, every retry that was scheduled was released or skipped or is held,
but for those scheduled since the closing began: at most one, and none if no call of the transport
was in progress. The residual is the number of lines held. -/
theorem balance_of_close (reachable : Reachable setup s) (calm : setup.NeverCrashes)
    (opened : s.closing = false) (free : s.wait? = none) {rest : List Request}
    (asked : s.requests = .close :: rest) {called : State}
    (taken : s.step? setup .client = some called) (run : Runs setup called t) {stats : Stats}
    {residual : Nat} (answered : t.closed? = some (stats, residual)) :
    ∃ late, late ≤ s.callsInProgress ∧ retriesIn t.events = retriesIn s.events + late ∧
      stats.retriesScheduled =
        releasedIn t.events + skippedIn t.events + t.backlog.items.length + late ∧
      residual = (t.backlog.items.map (·.batch.lineCount)).sum := by
  have reached : Reachable setup t := (reachable.move (.step .client taken)).runs run
  have balanced := reachable.balanced (reachable.isTorn_eq_false calm opened)
  have sound := reachable.standing.backlog.close
  obtain rfl := reachable.eq_of_close opened free asked taken
  -- The accounts balance when the closing begins; from then on only the counter moves.
  obtain ⟨_, backlog, since, split, noneReleased, noneSkipped, calls⟩ :=
    State.Shut.runs ⟨rfl, rfl, sound⟩ run
  have events : t.events = since ++ s.events := split
  have held : t.backlog.items = s.backlog.items := by rw [backlog, Backlog.close]
  obtain ⟨sameCounter, sameResidual⟩ := reached.truthful.answered stats residual answered
  refine ⟨retriesIn since, (Nat.le_add_right _ _).trans calls, ?_, ?_, ?_⟩
  · rw [events, retriesIn_append, Nat.add_comm]
  · calc stats.retriesScheduled
      _ = retriesIn t.events := sameCounter.trans reached.tallied
      _ = retriesIn since + retriesIn s.events := by rw [events, retriesIn_append]
      _ = retriesIn since +
          (releasedIn s.events + skippedIn s.events + t.backlog.items.length) := by
        rw [balanced, held]
      _ = releasedIn t.events + skippedIn t.events + t.backlog.items.length + retriesIn since := by
        rw [events, releasedIn_append, skippedIn_append, noneReleased, noneSkipped]
        omega
  · rw [sameResidual, reached.measured.size, Backlog.totalLines_eq_sum]
    exact congrArg List.sum (List.map_congr_left reached.measured.lines)

end Reachable

/-- A transport that refuses everything, after a second. -/
def Setup.sluggish : Setup :=
  { Setup.refusing with reply := fun _ ↦ .answer 1000000000 (some (.server 503 "busy" none)) }

theorem Setup.sluggish_neverCrashes : Setup.sluggish.NeverCrashes := by
  intro asked
  simp [Setup.sluggish]

namespace State

/-- A writer that is going to be closed during a call. -/
def hurried : State :=
  { { start .sluggish with requests := [.line [65]] }.settle .sluggish with requests := [.close] }

/-- The same writer as soon as it is closing. -/
def hurriedOn : State :=
  (hurried.client? .sluggish).getD hurried

/-- The same writer when the closing has come back. -/
def hurriedOut : State :=
  { hurriedOn.settle .sluggish with now := 1000000000 }.settle .sluggish

end State

theorem Reachable.hurried : Reachable .sluggish State.hurried :=
  ((Reachable.start rfl).runs (State.settle_ask_runs _ rfl)).move (.ask _ (by decide +kernel))

theorem hurriedOut_runs : Runs .sluggish State.hurriedOn State.hurriedOut :=
  State.settle_runs.trans (State.settle_pass_runs _ (by decide +kernel))

theorem hurriedOn_of_client : State.hurried.step? .sluggish .client = some State.hurriedOn := by
  decide +kernel

theorem balance_hurried : State.hurried.closing = false ∧ State.hurried.wait? = none ∧
    State.hurried.requests = [.close] ∧
    State.hurriedOut.closed? = some ({ retriesScheduled := 1 }, 0) ∧
    ∃ late, late ≤ State.hurried.callsInProgress ∧
      retriesIn State.hurriedOut.events = retriesIn State.hurried.events + late ∧
      1 = releasedIn State.hurriedOut.events + skippedIn State.hurriedOut.events +
        State.hurriedOut.backlog.items.length + late ∧
      0 = (State.hurriedOut.backlog.items.map (·.batch.lineCount)).sum :=
  have answered : State.hurriedOut.closed? = some ({ retriesScheduled := 1 }, 0) := by
    decide +kernel
  ⟨rfl, rfl, rfl, answered, Reachable.hurried.balance_of_close Setup.sluggish_neverCrashes rfl rfl
    rfl hurriedOn_of_client hurriedOut_runs answered⟩

/-- The retry of a call during which the writer was closed is counted, though the backlog has
neither taken the batch in nor reported it. -/
theorem hurriedOut_unbalanced : Setup.sluggish.NeverCrashes ∧
    Reachable .sluggish State.hurriedOut ∧
    State.hurriedOut.closed? = some ({ retriesScheduled := 1 }, 0) ∧
    releasedIn State.hurriedOut.events = 0 ∧ skippedIn State.hurriedOut.events = 0 ∧
    State.hurriedOut.backlog.items = [] :=
  ⟨Setup.sluggish_neverCrashes,
    (Reachable.hurried.move (.step .client hurriedOn_of_client)).runs hurriedOut_runs,
    by decide +kernel⟩

end LineDelivery.Pipeline
