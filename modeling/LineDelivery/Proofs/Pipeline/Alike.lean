import LineDelivery.Proofs.Pipeline.Clocked
import LineDelivery.Proofs.Pipeline.Faultless
import LineDelivery.Proofs.Pipeline.Foresight

/-!
# Writers that differ in faults only

Two writers that are the same without their faults stay the same without them: whatever one of them
can come to, the other can come to as well, by the same moves. The scheduler even makes the same of
both, since a fault is noted at a turn of the client after which the others have no more to do than
before.
-/

namespace LineDelivery.Pipeline

namespace State

variable {setup : Setup} {s t u : State}

/-! ## Any run -/

/-- The client can note all faults that come next. -/
theorem exists_turns_not_faulting (setup : Setup) (s : State) :
    ∃ t, Turns setup s t ∧ t.faultless = s.faultless ∧ ¬ t.Faulting := by
  induction length : s.requests.length using Nat.strong_induction_on generalizing s with
  | _ length ih =>
    by_cases faulting : s.Faulting
    · obtain ⟨t, taken, same, fewer⟩ := faulting.client? setup
      obtain ⟨u, turns, rest, ready⟩ := ih _ (by omega) t rfl
      exact ⟨u, .head ⟨.client, taken⟩ turns, rest.trans same, ready⟩
    · exact ⟨s, .refl, rfl, faulting⟩

/-- Where one writer notes a fault the other stands still, and where it does something else the other
notes the faults that come next and then does the same. -/
theorem alike_of_step? {task : Task} (taken : s.step? setup task = some t)
    (alike : s.faultless = u.faultless) : ∃ v, Turns setup u v ∧ t.faultless = v.faultless := by
  by_cases faulting : task = .client ∧ s.Faulting
  · obtain ⟨rfl, faulting⟩ := faulting
    obtain ⟨t, noted, kept, _⟩ := faulting.client? setup
    obtain rfl := Option.some.inj (noted.symm.trans taken)
    exact ⟨u, .refl, kept.trans alike⟩
  · obtain ⟨w, turns, same, ready⟩ := u.exists_turns_not_faulting setup
    have step := faultless_step? setup fun client still ↦ faulting ⟨client, still⟩
    rw [taken, alike, ← same, faultless_step? setup fun _ ↦ ready] at step
    obtain ⟨v, taken, same⟩ := Option.map_eq_some_iff.mp step
    exact ⟨v, turns.tail ⟨task, taken⟩, same.symm⟩

theorem not_faulting_of_clientIdle (idle : s.clientIdle) : ¬ s.Faulting := by
  rintro ⟨_, error, rest, asked⟩
  simp [(clientIdle_iff.mp idle).1] at asked

theorem clientIdle_faultless (ready : ¬ s.Faulting) : s.faultless.clientIdle = s.clientIdle := by
  rw [Bool.eq_iff_iff, clientIdle_iff, clientIdle_iff]
  constructor
  · rintro ⟨none, free⟩
    refine ⟨?_, free⟩
    cases asked : s.requests with
    | nil => rfl
    | cons request rest =>
      cases request with
      | unencodable error => exact absurd ⟨free, error, rest, asked⟩ ready
      | _ => simp [faultless, asked, Request.isFault] at none
  · rintro ⟨none, free⟩
    exact ⟨by simp [faultless, none], free⟩

end State

variable {setup : Setup} {s t u : State} {later : List (List Request)}

/-- What may have become of a writer that has begun these calls since, one after the other. -/
inductive Calls (setup : Setup) (s : State) : List (List Request) → State → Prop
  | start : Calls setup s [] s
  | step {later : List (List Request)} {t u : State} (before : Calls setup s later t) (task : Task)
      (taken : t.step? setup task = some u) : Calls setup s later u
  | pass {later : List (List Request)} {t : State} (before : Calls setup s later t) (now : Nat)
      (passes : t.now ≤ now) : Calls setup s later { t with now }
  | ask {later : List (List Request)} {t : State} (before : Calls setup s later t)
      (requests : List Request) (idle : t.clientIdle) :
      Calls setup s (later ++ [requests]) { t with requests, closed? := none }

namespace Calls

/-- What the tasks and the clock keep is kept as long as no other call is begun. -/
theorem keeps (call : Calls setup s [] t) (kept : State → Prop) (start : kept s)
    (step : ∀ t u task, kept t → t.step? setup task = some u → kept u)
    (pass : ∀ (t : State) now, kept t → kept { t with now }) : kept t := by
  generalize none : ([] : List (List Request)) = later at call
  induction call with
  | start => exact start
  | step _ task taken ih => exact step _ _ task (ih none) taken
  | pass _ now _ ih => exact pass _ now (ih none)
  | ask => simp at none

theorem turns (calls : Calls setup s later t) (turns : Turns setup t u) : Calls setup s later u := by
  induction turns with
  | refl => exact calls
  | tail _ step ih =>
    obtain ⟨task, taken⟩ := step
    exact ih.step task taken

theorem settle (calls : Calls setup s later t) : Calls setup s later (t.settle setup) := by
  unfold State.settle
  generalize t.work setup = turns, Task.client = last
  induction turns generalizing t last with
  | zero => exact calls
  | succ turns ih =>
    unfold State.takeTurns
    split
    · exact calls
    · next task u turn => exact ih (calls.step task (State.step?_of_turn? turn)) task

theorem finishCall? (calls : Calls setup s later t) {pauses : Nat}
    (finished : State.finishCall? setup pauses t = some u) : Calls setup s later u := by
  induction pauses generalizing t with
  | zero =>
    simp only [State.finishCall?, Option.ite_none_right_eq_some, Option.some.injEq] at finished
    exact finished.2 ▸ calls
  | succ pauses ih =>
    unfold State.finishCall? at finished
    split at finished
    · exact Option.some.inj finished ▸ calls
    split at finished
    · simp at finished
    · next advanced =>
      obtain ⟨time, _, rfl⟩ := Option.map_eq_some_iff.mp advanced
      exact ih (calls.pass _ (Nat.le_max_left _ _)).settle finished

/-- What the scheduler makes of a call. -/
theorem perform? {requests : List Request} {pauses : Nat}
    (performed : s.perform? setup pauses requests = some t) :
    Calls setup { s with requests, closed? := none } [] t :=
  start.settle.finishCall? performed

/-- Whatever one of two such writers comes to by some calls, the other can come to by them. -/
theorem alike (calls : Calls setup s later t) (alike : s.faultless = u.faultless) :
    ∃ v, Calls setup u later v ∧ t.faultless = v.faultless := by
  induction calls with
  | start => exact ⟨u, .start, alike⟩
  | step _ task taken ih =>
    obtain ⟨v, others, alike⟩ := ih
    obtain ⟨w, turns, alike⟩ := State.alike_of_step? taken alike
    exact ⟨w, others.turns turns, alike⟩
  | @pass _ t _ now passes ih =>
    obtain ⟨v, others, alike⟩ := ih
    have clock : t.faultless.now = v.faultless.now := congrArg State.now alike
    exact ⟨_, others.pass now (clock ▸ passes), congrArg (fun s : State ↦ { s with now }) alike⟩
  | @ask _ t _ requests idle ih =>
    obtain ⟨v, others, alike⟩ := ih
    obtain ⟨w, turns, same, ready⟩ := v.exists_turns_not_faulting setup
    have alike := alike.trans same.symm
    have free : w.clientIdle := by
      rw [← State.clientIdle_faultless ready, ← alike,
        State.clientIdle_faultless (State.not_faulting_of_clientIdle idle)]
      exact idle
    exact ⟨_, (others.turns turns).ask requests free, congrArg (fun s : State ↦
      { s with requests := requests.filter fun request ↦ !request.isFault, closed? := none }) alike⟩

end Calls

namespace State

/-- The transport is given the same at the same instants. -/
theorem sent_faultless (s : State) : s.faultless.sent = s.sent := by
  have sent (s : State) :
      s.sent = (s.history.filterMap fun entry ↦ entry.2.sent?.map (entry.1, ·)).reverse := rfl
  have each (entry : Nat × Event) :
      (entry.2.faultless?.map (entry.1, ·)).bind (fun entry ↦ entry.2.sent?.map (entry.1, ·)) =
        entry.2.sent?.map (entry.1, ·) := by
    obtain ⟨now, event⟩ := entry
    cases event with
    | reported error batch? attempt => cases batch? <;> rfl
    | _ => rfl
  simp only [sent, faultless, faultlessHistory, List.filterMap_filterMap, each]

/-! ## The scheduler -/

theorem Standing.faultless (standing : s.Standing) : s.faultless.Standing :=
  { standing with }

theorem Quiescent.not_faulting (quiescent : s.Quiescent setup) : ¬ s.Faulting := by
  intro faulting
  obtain ⟨t, taken, _⟩ := faulting.client? setup
  have none : s.client? setup = none := quiescent .client
  simp [none] at taken

theorem Quiescent.faultless (quiescent : s.Quiescent setup) : s.faultless.Quiescent setup := by
  intro task
  rw [faultless_step? setup fun _ ↦ quiescent.not_faulting, quiescent task]
  rfl

theorem takeTurns_of_quiescent (quiescent : s.Quiescent setup) (turns : Nat) (last : Task) :
    takeTurns setup turns last s = s := by
  have none : s.turn? setup last = none :=
    List.findSome?_eq_none_iff.mpr fun task _ ↦ by simp [quiescent task]
  cases turns <;> simp [takeTurns, none]

/-- A turn at which no fault is noted. -/
theorem faultless_turn? {last task : Task} (turn : s.turn? setup last = some (task, t))
    (ready : task = .client → ¬ s.Faulting) :
    s.faultless.turn? setup last = some (task, t.faultless) := by
  unfold turn? at turn ⊢
  generalize last :: Task.all = tasks at turn ⊢
  induction tasks with
  | nil => simp at turn
  | cons first others ih =>
    rw [List.findSome?_cons] at turn ⊢
    cases step : s.step? setup first with
    | none =>
      have quiet : first = .client → ¬ s.Faulting := by
        rintro rfl faulting
        obtain ⟨u, taken, _⟩ := faulting.client? setup
        exact absurd (step.symm.trans taken) (by simp)
      rw [faultless_step? setup quiet, step]
      exact ih (by simpa [step] using turn)
    | some u =>
      obtain ⟨rfl, rfl⟩ : first = task ∧ u = t := by simpa [step] using turn
      rw [faultless_step? setup ready, step]
      rfl

theorem takeTurns_of_turn? {last task : Task} (turn : s.turn? setup last = some (task, t))
    (turns : Nat) : takeTurns setup (turns + 1) last s = takeTurns setup turns task t := by
  rw [takeTurns, turn]

/-- When nobody but the client has a step, it does not matter who had the last turn. -/
theorem turn?_of_waiting (waiting : ∀ task ≠ .client, s.step? setup task = none) (last : Task) :
    s.turn? setup last = (s.step? setup .client).map (Task.client, ·) := by
  have buffering := waiting .buffering (by decide)
  have alarm := waiting .alarm (by decide)
  have sending := waiting .sending (by decide)
  cases last <;> cases client : s.step? setup .client <;>
    simp [turn?, Task.all, buffering, alarm, sending, client]

/-- The client has to wait until nobody else has a step, unless it had the last turn. -/
theorem waiting_of_turn? {last : Task} (other : last ≠ .client)
    (turn : s.turn? setup last = some (.client, t)) :
    ∀ task ≠ .client, s.step? setup task = none := by
  obtain ⟨before, found, after, tasks, step, none⟩ := List.findSome?_eq_some_iff.mp turn
  obtain rfl : found = .client := by
    obtain ⟨_, _, same⟩ := Option.map_eq_some_iff.mp step
    exact (Prod.mk.inj same).1
  intro task notClient
  have tried : task ∈ before := by
    rcases before with _ | ⟨_, _ | ⟨_, _ | ⟨_, _ | ⟨_, rest⟩⟩⟩⟩ <;> cases task <;>
      simp_all [Task.all]
  simpa using none task tried

theorem faultless_takeTurns (interval : 0 < setup.flushInterval) {turns others : Nat}
    (standing : s.Standing) (enough : s.work setup ≤ turns)
    (enoughLeft : s.faultless.work setup ≤ others) {last other : Task}
    (same : s.faultless.turn? setup other = s.faultless.turn? setup last) :
    (takeTurns setup turns last s).faultless = takeTurns setup others other s.faultless := by
  induction turns generalizing s last other others with
  | zero =>
    have quiescent : s.Quiescent setup := quiescent_takeTurns interval standing enough last
    exact (takeTurns_of_quiescent quiescent.faultless _ _).symm
  | succ turns ih =>
    cases turn : s.turn? setup last with
    | none =>
      have quiescent := quiescent_of_turn? turn
      rw [takeTurns_of_quiescent quiescent, takeTurns_of_quiescent quiescent.faultless]
    | some next =>
      obtain ⟨task, t⟩ := next
      have taken := step?_of_turn? turn
      have less := work_lt_of_step? interval standing taken
      rw [takeTurns_of_turn? turn]
      by_cases faulting : task = .client ∧ s.Faulting
      · obtain ⟨rfl, faulting⟩ := faulting
        obtain ⟨u, noted, kept, _⟩ := faulting.client? setup
        obtain rfl := Option.some.inj (noted.symm.trans taken)
        have after : u.faultless.turn? setup other = u.faultless.turn? setup .client := by
          rw [kept, same]
          by_cases again : last = .client
          · rw [again]
          · have waiting : ∀ task ≠ .client, s.faultless.step? setup task = none := by
              intro task notClient
              rw [faultless_step? setup fun client ↦ absurd client notClient,
                waiting_of_turn? again turn task notClient]
              rfl
            rw [turn?_of_waiting waiting, turn?_of_waiting waiting]
        rw [← kept]
        exact ih (standing.step? taken) (by omega) (kept ▸ enoughLeft) after
      · have step := faultless_turn? turn fun client still ↦ faulting ⟨client, still⟩
        have fewer := work_lt_of_step? interval standing.faultless (step?_of_turn? step)
        obtain ⟨others, rfl⟩ : ∃ before, others = before + 1 :=
          Nat.exists_eq_add_one.mpr (by omega)
        rw [takeTurns_of_turn? (same.trans step)]
        exact ih (standing.step? taken) (by omega) (by omega) rfl

theorem faultless_advance? (s : State) :
    s.faultless.advance? = s.advance?.map State.faultless := by
  have times : s.faultless.wakeUpTimes = s.wakeUpTimes := rfl
  simp only [advance?, times, Option.map_map, Function.comp_def]
  rfl

end State

namespace Reachable

theorem faultless_settle (reachable : Reachable setup s) :
    (s.settle setup).faultless = s.faultless.settle setup :=
  State.faultless_takeTurns reachable.flushInterval_pos reachable.standing le_rfl le_rfl rfl

theorem faultless_finishCall? (reachable : Reachable setup s) (quiescent : s.Quiescent setup)
    (pauses : Nat) :
    (State.finishCall? setup pauses s).map State.faultless =
      State.finishCall? setup pauses s.faultless := by
  have idle := State.clientIdle_faultless quiescent.not_faulting
  induction pauses generalizing s with
  | zero =>
    simp only [State.finishCall?, idle]
    split <;> rfl
  | succ pauses ih =>
    simp only [State.finishCall?, idle, State.faultless_advance?]
    split
    · rfl
    cases advanced : s.advance? with
    | none => rfl
    | some t =>
      have later := reachable.runs (State.advance?_runs advanced)
      have rests := later.quiescent_settle
      have settled := later.runs State.settle_runs
      simp only [Option.map_some, ← later.faultless_settle]
      exact ih settled rests (State.clientIdle_faultless rests.not_faulting)

/-- What the scheduler makes of a call is, but for the faults, what it makes of the call without
them. -/
theorem faultless_perform? (reachable : Reachable setup s) (idle : s.clientIdle) (pauses : Nat)
    (requests : List Request) :
    (s.perform? setup pauses requests).map State.faultless =
      s.faultless.perform? setup pauses (requests.filter fun request ↦ !request.isFault) := by
  have asked : Reachable setup { s with requests, closed? := none } :=
    reachable.move (.ask requests idle)
  have settled := asked.runs State.settle_runs
  rw [State.perform?, settled.faultless_finishCall? asked.quiescent_settle, asked.faultless_settle]
  rfl

end Reachable

end LineDelivery.Pipeline
