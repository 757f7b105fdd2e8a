import LineDelivery.Pipeline.Run
import Mathlib.Logic.Relation

/-!
# Runs of a writer

A run is any sequence of moves: some task that has a step takes it, whichever it is and whatever the
others could do, or time passes, or an idle client makes its next call. The scheduler of a writer
picks one of these runs, so what holds of all of them holds of every order of its tasks.
-/

namespace LineDelivery.Pipeline

inductive Move (setup : Setup) : State → State → Prop
  | step {s t : State} (task : Task) (taken : s.step? setup task = some t) : Move setup s t
  | pass {s : State} (now : Nat) (later : s.now ≤ now) : Move setup s { s with now }
  | ask {s : State} (requests : List Request) (idle : s.clientIdle) :
      Move setup s { s with requests, closed? := none }

/-- Any number of moves. -/
abbrev Runs (setup : Setup) : State → State → Prop :=
  Relation.ReflTransGen (Move setup)

/-- The states of a writer that was started, after any run. -/
inductive Reachable (setup : Setup) : State → Prop
  | start {s : State} (started : start? setup = .ok s) : Reachable setup s
  | move {s t : State} (before : Reachable setup s) (move : Move setup s t) : Reachable setup t

namespace Setup

/-- The transport never breaks the sending loop. -/
def NeverCrashes (setup : Setup) : Prop :=
  ∀ asked delay, setup.reply asked ≠ .crash delay

end Setup

theorem Reachable.runs {setup : Setup} {s t : State} (before : Reachable setup s)
    (run : Runs setup s t) : Reachable setup t := by
  induction run with
  | refl => exact before
  | tail _ move ih => exact ih.move move

/-- A writer that starts has valid options, and its queues can hold something. -/
theorem start?_eq_ok {setup : Setup} {s : State} (started : start? setup = .ok s) :
    setup.options.check = .ok () ∧ s = .start setup := by
  unfold start? at started
  cases checked : setup.options.check with
  | error error => simp [checked] at started
  | ok =>
    simp only [checked] at started
    split at started
    · simp at started
    · exact ⟨rfl, (Except.ok.inj started).symm⟩

namespace Reachable

variable {setup : Setup} {s : State}

theorem options_valid (reachable : Reachable setup s) : setup.options.check = .ok () := by
  induction reachable with
  | start started => exact (start?_eq_ok started).1
  | move _ _ ih => exact ih

theorem get_pos (reachable : Reachable setup s) (field : Options.Field)
    (isChecked : field ∈ Options.checked) : 0 < setup.options.get field := by
  have valid := reachable.options_valid
  have none_zero : setup.options.firstZero? = none := by
    unfold Options.check at valid
    split at valid
    · simp at valid
    · assumption
  have nonzero := List.find?_eq_none.mp none_zero field isChecked
  simpa [Nat.pos_iff_ne_zero] using nonzero

theorem channelCapacity_pos (reachable : Reachable setup s) : 0 < setup.channelCapacity :=
  reachable.get_pos .channelCapacity (by simp [Options.checked])

theorem flushInterval_pos (reachable : Reachable setup s) : 0 < setup.flushInterval :=
  Nat.mul_pos (reachable.get_pos .flushInterval (by simp [Options.checked])) (by decide)

end Reachable

/-! ## The scheduler's run -/

namespace State

variable {setup : Setup} {s t : State}

theorem step?_of_turn? {last task : Task} (turn : s.turn? setup last = some (task, t)) :
    s.step? setup task = some t := by
  obtain ⟨tried, _, found⟩ := List.exists_of_findSome?_eq_some turn
  simp only [Option.map_eq_some_iff, Prod.mk.injEq] at found
  obtain ⟨_, taken, rfl, rfl⟩ := found
  exact taken

theorem takeTurns_runs (turns : Nat) (last : Task) :
    Runs setup s (takeTurns setup turns last s) := by
  induction turns generalizing last s with
  | zero => exact .refl
  | succ turns ih =>
    unfold takeTurns
    split
    · exact .refl
    · next task t turn => exact .head (.step task (step?_of_turn? turn)) (ih task)

theorem settle_runs : Runs setup s (s.settle setup) :=
  takeTurns_runs _ _

theorem settle_ask_runs (requests : List Request) (idle : s.clientIdle) :
    Runs setup s ({ s with requests, closed? := none }.settle setup) :=
  .head (.ask requests idle) settle_runs

theorem settle_pass_runs (now : Nat) (later : s.now ≤ now) :
    Runs setup s ({ s with now }.settle setup) :=
  .head (.pass now later) settle_runs

theorem advance?_runs (advanced : s.advance? = some t) : Runs setup s t := by
  obtain ⟨time, _, rfl⟩ := Option.map_eq_some_iff.mp advanced
  exact .single (.pass _ (Nat.le_max_left _ _))

theorem finishCall?_runs {pauses : Nat} (finished : finishCall? setup pauses s = some t) :
    Runs setup s t := by
  induction pauses generalizing s with
  | zero =>
    simp only [finishCall?, Option.ite_none_right_eq_some, Option.some.injEq] at finished
    exact finished.2 ▸ .refl
  | succ pauses ih =>
    unfold finishCall? at finished
    split at finished
    · exact Option.some.inj finished ▸ .refl
    · split at finished
      · simp at finished
      · next advanced => exact ((advance?_runs advanced).trans settle_runs).trans (ih finished)

/-- What the scheduler makes of a call is one of the runs. -/
theorem perform?_runs {pauses : Nat} {requests : List Request} (idle : s.clientIdle)
    (performed : s.perform? setup pauses requests = some t) : Runs setup s t :=
  (settle_ask_runs requests idle).trans (finishCall?_runs performed)

end State

/-! ## Two transports -/

namespace Setup

/-- A transport that refuses everything; one retry is made, after a second. -/
def refusing : Setup where
  options := { batchSize := 1, maxRetries := 1 }
  reply _ := .answer 0 (some (.server 503 "busy" none))
  verdict? := none
  delay _ _ _ := 1000000000

/-- A transport that refuses the first batch at once and takes a second for each of the others. -/
def hesitant : Setup where
  options := { batchSize := 1 }
  reply asked :=
    if asked = 0 then .answer 0 (some (.server 503 "busy" none)) else .answer 1000000000 none
  verdict? := none
  delay _ _ _ := 5000000000

theorem refusing_neverCrashes : refusing.NeverCrashes := by
  intro asked delay
  simp [refusing]

theorem hesitant_neverCrashes : hesitant.NeverCrashes := by
  intro asked delay
  dsimp only [hesitant]
  split <;> simp

end Setup

/-- A refused batch waits for its retry. -/
def State.refused : State :=
  { start .refusing with requests := [.line [65]] }.settle .refusing

theorem Reachable.refused : Reachable .refusing State.refused :=
  (Reachable.start rfl).runs (State.settle_ask_runs _ rfl)

end LineDelivery.Pipeline
