import LineDelivery.Proofs.Pipeline.Balance
import LineDelivery.Proofs.Pipeline.Standstill

/-!
# Shutting down

From the instant at which the client closes the writer or gives it up, no call of the transport
begins. One that is in progress ends and is handled, once, if the transport answers; nothing else is
waited for, wherever the loops stand. When a closing has come back, all that it answered stays true.
-/

namespace LineDelivery.Pipeline

namespace Event

/-- The answer of the transport that came in. -/
def answer? : Event → Option (Batch × Nat × Option DeliveryError)
  | answered batch attempt error? => some (batch, attempt, error?)
  | _ => none

/-- The attempt that was handled: as delivered, as given up, or to be made again. -/
def outcome? : Event → Option (Batch × Nat)
  | delivered batch attempt => some (batch, attempt)
  | abandoned batch attempt _ => some (batch, attempt)
  | retrying batch attempt _ _ => some (batch, attempt)
  | _ => none

def isUnencodable : Event → Bool
  | unencodable _ => true
  | _ => false

end Event

namespace State

variable {setup : Setup} {s t u : State}

/-! ## The call in progress -/

/-- What became of a call since it was in progress: if the transport answers, it is answered and
handled once, and otherwise it breaks the loop. -/
inductive Completes (setup : Setup) (call : Call) (since : List Event) (t : State) : Prop
  | going (busy : t.sending = .calling call) (unanswered : since.filterMap Event.answer? = [])
      (unhandled : since.filterMap Event.outcome? = [])
  | done {took : Nat} {error? : Option DeliveryError}
      (told : setup.reply call.asked = .answer took error?)
      (free : ∀ other, t.sending ≠ .calling other)
      (answered : since.filterMap Event.answer? = [(call.batch, call.attempt, error?)])
      (handled : since.filterMap Event.outcome? = [(call.batch, call.attempt)])
  | broken {took : Nat} (breaks : setup.reply call.asked = .crash took)
      (free : ∀ other, t.sending ≠ .calling other) (crashed : .crashed call.batch ∈ since)
      (unanswered : since.filterMap Event.answer? = [])
      (unhandled : since.filterMap Event.outcome? = [])

/-- From closing on no call has begun, and none is in progress but one that was. -/
structure Winding (setup : Setup) (s t : State) (since : List Event) : Prop where
  events : t.events = since ++ s.events
  closing : t.closing
  calls : t.calls = s.calls
  uncalled : ∀ batch attempt, .called batch attempt ∉ since
  busy : ∀ call, t.sending = .calling call → s.sending = .calling call
  completes : ∀ call, s.sending = .calling call → Completes setup call since t

theorem Winding.refl (closing : s.closing) : Winding setup s s [] where
  events := rfl
  closing := closing
  calls := rfl
  uncalled := by simp
  busy _ busy := busy
  completes _ busy := .going busy rfl rfl

/-- Events that are about no call leave it as it was. -/
theorem Completes.quiet {call : Call} {since : List Event}
    (completes : Completes setup call since t) (block : List Event)
    (unanswered : block.filterMap Event.answer? = [])
    (unhandled : block.filterMap Event.outcome? = [])
    (still : ∀ call, u.sending = .calling call ↔ t.sending = .calling call) :
    Completes setup call (block ++ since) u := by
  cases completes with
  | going busy noAnswer noOutcome =>
    refine .going ((still call).mpr busy) ?_ ?_ <;> simp [*]
  | done told free answered handled =>
    refine .done told (fun other busy ↦ free other ((still other).mp busy)) ?_ ?_ <;> simp [*]
  | broken breaks free crashed noAnswer noOutcome =>
    refine .broken breaks (fun other busy ↦ free other ((still other).mp busy))
      (List.mem_append_right _ crashed) ?_ ?_ <;> simp [*]

/-- What became of a call became of it also since an earlier time, when it was in progress too. -/
theorem Completes.after {call : Call} {block : List Event}
    (completes : Completes setup call block t) (since : List Event)
    (unanswered : since.filterMap Event.answer? = [])
    (unhandled : since.filterMap Event.outcome? = []) :
    Completes setup call (block ++ since) t := by
  cases completes with
  | going busy noAnswer noOutcome => refine .going busy ?_ ?_ <;> simp [*]
  | done told free answered handled => refine .done told free ?_ ?_ <;> simp [*]
  | broken breaks free crashed noAnswer noOutcome =>
    refine .broken breaks free (List.mem_append_left _ crashed) ?_ ?_ <;> simp [*]

theorem Winding.other {since : List Event} (winding : Winding setup s t since) {task : Task}
    (other : task ≠ .sending) (taken : t.step? setup task = some u) :
    ∃ block, Winding setup s u (block ++ since) := by
  obtain ⟨block, history, own⟩ := writes_of_step? taken
  obtain ⟨sending, calls, _⟩ := sendingSide_of_step? other taken
  have silent : ∀ event ∈ block, event.answer? = none ∧ event.outcome? = none ∧
      ∀ batch attempt, event ≠ .called batch attempt := by
    intro event there
    have writes := own event there
    cases event <;> simp_all [Event.writers, Event.answer?, Event.outcome?]
  refine ⟨block, ?_, closing_of_step? winding.closing taken, calls.trans winding.calls, ?_, ?_, ?_⟩
  · rw [events_of_history history, winding.events, List.append_assoc]
  · intro batch attempt there
    rcases List.mem_append.mp there with new | old
    · exact (silent _ new).2.2 batch attempt rfl
    · exact winding.uncalled batch attempt old
  · rw [sending]
    exact winding.busy
  · intro call busy
    refine (winding.completes call busy).quiet block ?_ ?_ (by simp [sending])
    · exact List.filterMap_eq_nil_iff.mpr fun event there ↦ (silent event there).1
    · exact List.filterMap_eq_nil_iff.mpr fun event there ↦ (silent event there).2.1

/-- A call that ends is answered and handled, once, or breaks the loop. -/
theorem completes_of_callEnded {call : Call} (ended : CallEnded setup s call t) :
    ∃ block, t.events = block ++ s.events ∧ Completes setup call block t ∧
      ∀ batch attempt, .called batch attempt ∉ block := by
  have reported (error : DeliveryError) :
      (reports setup error call.batch call.attempt).filterMap Event.answer? = [] ∧
        (reports setup error call.batch call.attempt).filterMap Event.outcome? = [] ∧
        ∀ batch attempt, .called batch attempt ∉ reports setup error call.batch call.attempt := by
    unfold reports
    split <;> simp [Event.answer?, Event.outcome?]
  cases ended with
  | crashed crash =>
    exact ⟨_, events_of_history rfl, .broken crash (by simp) (.head _) rfl rfl, by simp⟩
  | delivered success =>
    exact ⟨_, events_of_history rfl, .done success (by simp) rfl rfl, by simp⟩
  | abandoned failure | retried failure =>
    refine ⟨_, events_of_history rfl, .done failure (by simp) ?_ ?_, ?_⟩ <;>
      simp [reported, Event.answer?, Event.outcome?, List.filterMap_cons, List.filterMap_map,
        Function.comp_def]

theorem Winding.sending? {since : List Event} (winding : Winding setup s t since)
    (taken : t.sending? setup = some u) : ∃ block, Winding setup s u (block ++ since) := by
  have closing := winding.closing
  have step : t.step? setup .sending = some u := taken
  have still : u.closing := closing_of_step? closing step
  cases action_of_sending? taken with
  | stop idle =>
    refine ⟨[.sendingStopped], congrArg _ winding.events, closing, winding.calls, ?_, ?_, ?_⟩
    · simpa using winding.uncalled
    · simp [stopSending, record]
    · exact fun call busy ↦ (winding.completes call busy).quiet [.sendingStopped] rfl rfl
        (by simp [stopSending, record, idle])
  | again idle opened => simp [opened] at closing
  | fresh idle opened => simp [opened] at closing
  | barrier idle opened => simp [opened] at closing
  | @endCall call _ busy isOver ended =>
    obtain ⟨block, events, completes, uncalled⟩ := completes_of_callEnded ended
    have afterwards : (∀ other, u.sending ≠ .calling other) ∧ u.calls = t.calls := by
      cases ended <;> exact ⟨by simp, rfl⟩
    refine ⟨block, ?_, still, afterwards.2.trans winding.calls, ?_, ?_, ?_⟩
    · rw [events, winding.events, List.append_assoc]
    · simpa using fun batch attempt ↦ ⟨uncalled batch attempt, winding.uncalled batch attempt⟩
    · exact fun other again ↦ absurd again (afterwards.1 other)
    · intro other before
      obtain rfl : call = other := Sending.calling.inj ((winding.busy call busy).symm.trans before)
      cases winding.completes call before with
      | going _ unanswered unhandled => exact completes.after since unanswered unhandled
      | done told free | broken breaks free => exact absurd busy (free call)

theorem Winding.runs (closing : s.closing) (run : Runs setup s t) :
    ∃ since, Winding setup s t since := by
  induction run with
  | refl => exact ⟨[], .refl closing⟩
  | @tail t u _ move ih =>
    obtain ⟨since, winding⟩ := ih
    cases move with
    | step task taken =>
      by_cases other : task = .sending
      · subst other
        obtain ⟨block, winding⟩ := winding.sending? taken
        exact ⟨_, winding⟩
      · obtain ⟨block, winding⟩ := winding.other other taken
        exact ⟨_, winding⟩
    | pass now later =>
      exact ⟨since, { winding with
        completes := fun call busy ↦ (winding.completes call busy).quiet [] rfl rfl fun _ ↦ .rfl }⟩
    | ask requests idle =>
      exact ⟨since, { winding with
        completes := fun call busy ↦ (winding.completes call busy).quiet [] rfl rfl fun _ ↦ .rfl }⟩

/-! ## What a closing has answered -/

/-- If the latest that happened is that a closing came back, its answer is what the writer shows. -/
def Answered (s : State) : Prop :=
  ∀ stats residual, s.events.head? = some (.stopped stats residual) →
    stats = s.stats ∧ residual = s.backlog.size ∧ s.joined

/-- Another event on top says nothing of a closing. -/
theorem Answered.of_cons {event : Event} {rest : List Event} (events : t.events = event :: rest)
    (other : ∀ stats residual, event ≠ .stopped stats residual) : t.Answered := by
  intro stats residual head
  rw [events, List.head?_cons, Option.some.injEq] at head
  exact absurd head (other stats residual)

theorem Answered.served (answered : s.Answered) {request : Request}
    (served : Served setup s request t) : t.Answered := by
  cases served with
  | refused | lost | accepted | flushStopped | flush => exact .of_cons rfl (by simp)
  | unencodable error =>
    intro stats residual head
    cases registered : setup.verdict?.isSome <;> simp [events, registered] at head
  | close first =>
    intro stats residual head
    exact absurd (answered stats residual head).2.2 (by simp [first])
  | closeAgain joined =>
    intro stats residual head
    obtain ⟨rfl, rfl⟩ : s.stats = stats ∧ s.backlog.size = residual := by
      simpa [events, finishClose, record] using head
    exact ⟨rfl, rfl, joined⟩
  | giveUp =>
    intro stats residual head
    have size : s.giveUp.backlog.size = s.backlog.size := by
      unfold giveUp
      dsimp only
      split <;> rfl
    rw [size]
    exact answered stats residual head
  | _ => exact answered

theorem Answered.client? (answered : s.Answered) (truthful : s.Truthful)
    (taken : s.client? setup = some t) : t.Answered := by
  cases action_of_client? taken with
  | @endWait wait waits =>
    cases wait with
    | bothLoops left =>
      intro stats residual head
      rw [endWait_bothLoops] at head ⊢
      obtain ⟨rfl, rfl⟩ : s.stats = stats ∧ left = residual := by
        simpa [events, endEvents] using head
      exact ⟨rfl, truthful.waits left waits, rfl⟩
    | _ => exact answered
  | @serve request rest _ free asked served =>
    have before : { s with requests := rest }.Answered := answered
    exact before.served served

theorem Answered.step? (answered : s.Answered) (truthful : s.Truthful) (ending : s.Ending)
    (sound : s.backlog.Sound) {task : Task} (taken : s.step? setup task = some t) :
    t.Answered := by
  by_cases client : task = .client
  · subst client
    exact answered.client? truthful taken
  · obtain ⟨block, history, own⟩ := writes_of_step? taken
    have events := events_of_history history
    cases block with
    | nil =>
      intro stats residual head
      rw [events] at head
      have ended := ending.joined (answered stats residual head).2.2
      exact absurd (ended.task_eq_client sound taken) client
    | cons event rest =>
      refine .of_cons events fun stats residual same ↦ client ?_
      simpa [same, Event.writers] using own event (.head _)

/-! ## What could not be encoded -/

theorem Writes.countP_eq {task : Task} (writes : Writes task s t) {p : Event → Bool}
    (others : ∀ event, task ∈ event.writers → p event = false) :
    t.events.countP p = s.events.countP p := by
  obtain ⟨block, history, own⟩ := writes
  have none : block.countP p = 0 :=
    List.countP_eq_zero.mpr fun event there ↦ by simp [others event (own event there)]
  rw [events_of_history history, List.countP_append, none, Nat.zero_add]

/-- The records that could not be encoded are counted. -/
def CountsUnencodable (s : State) : Prop :=
  s.stats.encodingFailures = s.events.countP Event.isUnencodable

theorem CountsUnencodable.of_history (counts : s.CountsUnencodable) (block : List Event)
    (history : t.history = s.stamped block ++ s.history)
    (counted : t.stats.encodingFailures =
      block.countP Event.isUnencodable + s.stats.encodingFailures) : t.CountsUnencodable := by
  rw [CountsUnencodable, events_of_history history, List.countP_append, counted, counts]

theorem CountsUnencodable.served (counts : s.CountsUnencodable) {request : Request}
    (served : Served setup s request t) : t.CountsUnencodable := by
  have noneHandedBack : (s.backlog.releaseAll.2.reverse.map fun batch ↦
      Event.backlog (if s.sending.isOver then .discarded batch else .released batch)).countP
        Event.isUnencodable = 0 := by
    rw [List.countP_map, List.countP_eq_zero]
    intro batch _
    dsimp only [Function.comp_apply]
    split <;> simp [Event.isUnencodable]
  cases served with
  | refused | lost | accepted | closeAgain => exact counts.of_history [_] rfl (Nat.zero_add _).symm
  | unencodable error =>
    refine counts.of_history _ rfl ?_
    split <;> simp [Event.isUnencodable, Nat.add_comm]
  | flushStopped | flush =>
    rw [withBacklog_eq]
    refine counts.of_history (_ :: _) rfl ?_
    rw [List.countP_cons_of_neg (by simp [Event.isUnencodable]), noneHandedBack]
    exact (Nat.zero_add _).symm
  | _ => exact counts.of_history [] rfl (Nat.zero_add _).symm

theorem CountsUnencodable.client? (counts : s.CountsUnencodable)
    (taken : s.client? setup = some t) : t.CountsUnencodable := by
  cases action_of_client? taken with
  | @endWait wait =>
    cases wait with
    | bothLoops residual =>
      rw [endWait_bothLoops]
      refine counts.of_history _ rfl ?_
      unfold endEvents
      split <;> simp [Event.isUnencodable]
    | _ => exact counts
  | @serve request rest _ free asked served =>
    have before : { s with requests := rest }.CountsUnencodable := counts
    exact before.served served

theorem CountsUnencodable.step? (counts : s.CountsUnencodable) {task : Task}
    (taken : s.step? setup task = some t) : t.CountsUnencodable := by
  by_cases client : task = .client
  · subst client
    exact counts.client? taken
  · rw [CountsUnencodable, (clock_of_step? client taken).2, counts,
      (writes_of_step? taken).countP_eq]
    intro event own
    cases event <;> simp_all [Event.writers, Event.isUnencodable]

/-! ## The end -/

theorem Ended.runs (ended : s.Ended) (run : Runs setup s t) : t.Ended := by
  induction run with
  | refl => exact ended
  | tail _ move ih =>
    cases move with
    | step task taken => exact ih.step? taken
    | pass now later => exact { ih with }
    | ask requests idle => exact { ih with }

/-- Nothing is left to do at this instant: the buffering loop has ended, and so has the sending loop
unless a call of the transport still has to answer; if it has, the client hangs nowhere. -/
def WoundUp (s : State) : Prop :=
  s.buffering.running = false ∧
    ((∃ call, s.sending = .calling call ∧ s.now < call.endsAt) ∨ s.sending.isOver ∧ s.Unblocked)

/-- What a closing that came back with this answer has made final. -/
structure Final (s t : State) (stats : Stats) (residual : Nat) : Prop where
  ended : t.Ended
  size : t.backlog.size = residual
  since : ∃ since, t.events = since ++ s.events ∧
    (∀ event ∈ since, event.isDelivery = false) ∧
    ∀ again left, t.events.head? = some (.stopped again left) →
      (∀ error, .unencodable error ∉ since) → again = stats ∧ left = residual

/-- The client closes the writer or gives it up. -/
inductive Shuts (setup : Setup) (s t : State) : Prop
  | intro (request : Request) (rest : List Request) (isEnd : request = .close ∨ request = .giveUp)
      (free : s.wait? = none) (asked : s.requests = request :: rest)
      (taken : s.step? setup .client = some t)

theorem Shuts.closing (shuts : Shuts setup s t) : t.closing ∧ t.sending = s.sending := by
  obtain ⟨request, rest, isEnd, free, asked, taken⟩ := shuts
  refine ⟨?_, (loops_of_client? taken).2⟩
  cases action_of_client? taken with
  | endWait waits => simp [free] at waits
  | serve _ found served =>
    obtain ⟨rfl, rfl⟩ := List.cons.inj (asked.symm.trans found)
    rcases isEnd with rfl | rfl <;> cases served <;> rfl

end State

namespace Reachable

variable {setup : Setup} {s t called : State}

theorem answered (reachable : Reachable setup s) : s.Answered := by
  induction reachable with
  | start started =>
    rw [(start?_eq_ok started).2]
    simp [State.Answered, State.events, State.start, State.record]
  | move before move ih =>
    cases move with
    | step task taken =>
      exact ih.step? before.truthful before.ending before.standing.backlog taken
    | pass now later => exact ih
    | ask requests idle => exact ih

theorem countsUnencodable (reachable : Reachable setup s) : s.CountsUnencodable := by
  induction reachable with
  | start started =>
    rw [(start?_eq_ok started).2]
    rfl
  | move _ move ih =>
    cases move with
    | step task taken => exact ih.step? taken
    | pass now later => exact ih
    | ask requests idle => exact ih

/-- A writer that is closing ends at once, but for the call in progress. -/
theorem woundUp (reachable : Reachable setup s) (closing : s.closing) :
    AtOnce setup State.WoundUp s := by
  refine reachable.atOnce fun t turns quiescent ↦ ?_
  have reached := reachable.runs turns.runs
  obtain ⟨_, winding⟩ := State.Winding.runs closing turns.runs
  have still := winding.closing
  have loop : t.buffering? setup = none := quiescent .buffering
  have sender : t.sending? setup = none := quiescent .sending
  constructor
  · cases running : t.buffering.running with
    | false => rfl
    | true => simp [State.buffering?, running, still] at loop
  cases sending : t.sending with
  | idle => simp [State.sending?, sending, still] at sender
  | calling call =>
    have early : t.now < call.endsAt := by simpa [State.sending?, sending] using sender
    exact .inl ⟨call, rfl, early⟩
  | stopped | crashed =>
    have isOver : t.sending.isOver := by simp [sending, Sending.isOver]
    exact .inr ⟨rfl, reached.unblocked_of_quiescent isOver quiescent⟩

theorem final (reachable : Reachable setup s) {stats : Stats} {residual : Nat}
    (back : s.events.head? = some (.stopped stats residual)) (run : Runs setup s t) :
    State.Final s t stats residual := by
  obtain ⟨rfl, rfl, joined⟩ := reachable.answered stats residual back
  have reached := reachable.runs run
  have ended := reachable.ending.joined joined
  obtain ⟨_, backlog, _⟩ :=
    State.Shut.runs ⟨ended.closing, ended.backlog, reachable.standing.backlog⟩ run
  obtain ⟨sending, still⟩ := State.standstill_of_runs ended.sending run
  obtain ⟨since, events, quiet⟩ := still.events
  refine ⟨ended.runs run, by rw [backlog], since, events, quiet, fun again left head encoded ↦ ?_⟩
  obtain ⟨rfl, rfl, _⟩ := reached.answered again left head
  have none : since.countP Event.isUnencodable = 0 := by
    refine List.countP_eq_zero.mpr fun event there ↦ ?_
    cases event <;> simp_all [Event.isUnencodable]
  have failures : t.stats.encodingFailures = s.stats.encodingFailures := by
    rw [reached.countsUnencodable, reachable.countsUnencodable, events, List.countP_append, none,
      Nat.zero_add]
  refine ⟨?_, by rw [backlog]⟩
  rw [still.stats, failures]

/-- From the instant at which the client closes the writer or gives it up, no call of the transport
begins; one in progress then completes and is handled once, if the transport answers it. Both loops
end without waiting on anything but that call, and only then a closing comes back. What it answered
stays: nobody is asked or told about a batch any more, the backlog keeps its size, and a further
closing answers the same unless a record could not be encoded in between. -/
theorem shutdown (reachable : Reachable setup s) (shuts : State.Shuts setup s called)
    (run : Runs setup called t) :
    (∃ since, t.events = since ++ called.events ∧ t.calls = called.calls ∧
      (∀ batch attempt, .called batch attempt ∉ since) ∧
      ∀ call, s.sending = .calling call → State.Completes setup call since t) ∧
    AtOnce setup State.WoundUp t ∧
    ∀ stats residual, t.events.head? = some (.stopped stats residual) →
      ∀ u, Runs setup t u → State.Final t u stats residual := by
  obtain ⟨closing, sending⟩ := shuts.closing
  have reached : Reachable setup t := by
    obtain ⟨_, _, _, _, _, taken⟩ := shuts
    exact (reachable.move (.step .client taken)).runs run
  obtain ⟨since, winding⟩ := State.Winding.runs closing run
  refine ⟨⟨since, winding.events, winding.calls, winding.uncalled, ?_⟩, ?_, ?_⟩
  · exact fun call busy ↦ winding.completes call (sending.trans busy)
  · exact reached.woundUp winding.closing
  · exact fun stats residual back u run ↦ reached.final back run

end Reachable

theorem shuts_hurried : State.Shuts .sluggish State.hurried State.hurriedOn :=
  .intro .close [] (.inl rfl) rfl rfl hurriedOn_of_client

/-- The same writer when it has been closed once more. -/
def State.hurriedAgain : State :=
  { hurriedOut with requests := [.close], closed? := none }.settle .sluggish

theorem hurriedAgain_runs : Runs .sluggish State.hurriedOut State.hurriedAgain :=
  State.settle_ask_runs _ (by decide +kernel)

/-- The writer is closed during a call, and once more when that has come back. -/
theorem shutdown_hurried :
    (∃ call since, State.hurried.sending = .calling call ∧
      State.hurriedOut.events = since ++ State.hurriedOn.events ∧
      State.Completes .sluggish call since State.hurriedOut) ∧
    AtOnce .sluggish State.WoundUp State.hurriedOn ∧
    State.hurriedOut.events.head? = some (.stopped { retriesScheduled := 1 } 0) ∧
    State.Final State.hurriedOut State.hurriedAgain { retriesScheduled := 1 } 0 := by
  have back : State.hurriedOut.events.head? = some (.stopped { retriesScheduled := 1 } 0) := by
    decide +kernel
  obtain ⟨call, busy⟩ : ∃ call, State.hurried.sending = .calling call := ⟨_, rfl⟩
  obtain ⟨⟨since, events, _, _, completes⟩, _, final⟩ :=
    Reachable.hurried.shutdown shuts_hurried hurriedOut_runs
  refine ⟨⟨call, since, busy, events, completes call busy⟩, ?_, back, ?_⟩
  · exact (Reachable.hurried.shutdown shuts_hurried .refl).2.1
  · exact final _ _ back _ hurriedAgain_runs

end LineDelivery.Pipeline
