import LineDelivery.Proofs.Pipeline.Work

/-!
# Calls by the clock

A client writes, flushes and sleeps, and makes each call as soon as the one before it has returned,
be it that the tasks have still something to do at that instant. The tasks take their steps in any
order; time passes only when none has a step, and then straight to the next instant that one of them
waits for.
-/

namespace LineDelivery.Pipeline

/-- What a client does with a writer that stays open. -/
inductive ClientCall where
  | write (chunk : Bytes)
  /-- Writes the records that could be encoded. -/
  | writeAll (records : List Encoded)
  | flush
  | sleep (duration : Nat)
  deriving DecidableEq, Repr

namespace ClientCall

def requests : ClientCall → List Request
  | write chunk => [.line chunk]
  | writeAll records => records.map .ofEncoded
  | flush => [.flush]
  | sleep duration => [.sleep duration]

end ClientCall

theorem State.clientIdle_iff {s : State} : s.clientIdle ↔ s.requests = [] ∧ s.wait? = none := by
  simp [clientIdle]

/-- The client is done with its calls, and no task has anything left to do. -/
structure State.IsDone (setup : Setup) (s : State) : Prop where
  idle : s.clientIdle
  quiescent : s.Quiescent setup

inductive ClockedMove (setup : Setup) : State → State → Prop
  | step {s t : State} (task : Task) (taken : s.step? setup task = some t) : ClockedMove setup s t
  | wait {s t : State} (waiting : s.clientIdle = false) (quiescent : s.Quiescent setup)
      (advanced : s.advance? = some t) : ClockedMove setup s t

/-- What may have become of a writer since a client began to make calls. As soon as its last call has
returned the client may make others, which it makes one after the other without a pause. -/
inductive Plays (setup : Setup) (s : State) : List ClientCall → State → Prop
  | start : Plays setup s [] s
  | call {calls : List ClientCall} {t : State} (before : Plays setup s calls t)
      (idle : t.clientIdle) (next : List ClientCall) :
      Plays setup s (calls ++ next)
        { t with requests := next.flatMap ClientCall.requests, closed? := none }
  | move {calls : List ClientCall} {t u : State} (before : Plays setup s calls t)
      (move : ClockedMove setup t u) : Plays setup s calls u

/-- Whatever the tasks do, they come to such a state in the end. -/
inductive Finally (setup : Setup) (goal : State → Prop) : State → Prop
  | now {s : State} (reached : goal s) : Finally setup goal s
  | next {s t : State} (move : ClockedMove setup s t)
      (all : ∀ t, ClockedMove setup s t → Finally setup goal t) : Finally setup goal s

variable {setup : Setup} {s t : State} {calls : List ClientCall}

theorem ClockedMove.move (move : ClockedMove setup s t) : Move setup s t := by
  cases move with
  | step task taken => exact .step task taken
  | wait waiting quiescent advanced =>
    obtain ⟨time, _, rfl⟩ := Option.map_eq_some_iff.mp advanced
    exact .pass _ (Nat.le_max_left _ _)

theorem Plays.runs (plays : Plays setup s calls t) : Runs setup s t := by
  induction plays with
  | start => exact .refl
  | call before idle next ih => exact ih.tail (.ask _ idle)
  | move before move ih => exact ih.tail move.move

theorem Finally.imp {goal weaker : State → Prop} (ends : Finally setup goal s)
    (implies : ∀ t, goal t → weaker t) : Finally setup weaker s := by
  induction ends with
  | now reached => exact .now (implies _ reached)
  | next move _ ih => exact .next move ih

/-- A state to which the tasks have to come can be come to. -/
theorem Plays.exists_of_finally {goal : State → Prop} (plays : Plays setup s calls t)
    (ends : Finally setup goal t) : ∃ u, Plays setup s calls u ∧ goal u := by
  induction ends with
  | now reached => exact ⟨_, plays, reached⟩
  | next move _ ih => exact ih _ move (plays.move move)

/-! ## The scheduler -/

theorem Plays.takeTurns (plays : Plays setup s calls t) (turns : Nat) (last : Task) :
    Plays setup s calls (State.takeTurns setup turns last t) := by
  induction turns generalizing last t with
  | zero => exact plays
  | succ turns ih =>
    unfold State.takeTurns
    split
    · exact plays
    · next task u turn => exact ih (plays.move (.step task (State.step?_of_turn? turn))) task

theorem Plays.settle (plays : Plays setup s calls t) : Plays setup s calls (t.settle setup) :=
  plays.takeTurns _ _

theorem Plays.finishCall? (plays : Plays setup s calls t) (reachable : Reachable setup s)
    (quiescent : t.Quiescent setup) {pauses : Nat} {u : State}
    (finished : State.finishCall? setup pauses t = some u) :
    Plays setup s calls u ∧ u.IsDone setup := by
  induction pauses generalizing t with
  | zero =>
    simp only [State.finishCall?, Option.ite_none_right_eq_some, Option.some.injEq] at finished
    exact finished.2 ▸ ⟨plays, finished.1, quiescent⟩
  | succ pauses ih =>
    unfold State.finishCall? at finished
    split at finished
    · next idle => exact Option.some.inj finished ▸ ⟨plays, idle, quiescent⟩
    next waiting =>
    split at finished
    · simp at finished
    · next later advanced =>
      have passed := plays.move (.wait (Bool.eq_false_iff.mpr waiting) quiescent advanced)
      exact ih passed.settle (reachable.runs passed.runs).quiescent_settle finished

/-- The scheduler lets the client play its calls like this. -/
theorem Plays.perform? (plays : Plays setup s calls t) (reachable : Reachable setup s)
    (idle : t.clientIdle) {next : List ClientCall} {pauses : Nat} {u : State}
    (performed : t.perform? setup pauses (next.flatMap ClientCall.requests) = some u) :
    Plays setup s (calls ++ next) u ∧ u.IsDone setup := by
  have called := plays.call idle next
  exact called.settle.finishCall? reachable (reachable.runs called.runs).quiescent_settle performed

end LineDelivery.Pipeline
