import LineDelivery.Proofs.Pipeline.Foresight
import LineDelivery.Proofs.Pipeline.Freshness
import LineDelivery.Proofs.Pipeline.Terminated

/-!
# Raw writes and encoded ones

Bytes can be written as they are, or as a record that encodes itself and adds the newline which the
bytes lack. Nobody outside the writer can tell which: whatever moves the two writers, and whenever,
the same happens in both, but for how their chunks look on the way to the line buffer.
-/

namespace LineDelivery.Pipeline

variable {setup : Setup} {s : State} {calls others : List (List Request)}

/-- What can be told of a writer from outside. -/
structure Outside where
  now : Nat
  /-- What has happened, but for the passage of chunks to the line buffer. -/
  history : List (Nat × Event)
  stats : Stats
  closed? : Option (Stats × Nat)
  closing : Bool
  clientIdle : Bool
  /-- The lines that wait for a retry. -/
  held : Nat
  deriving DecidableEq, Repr

def Event.isPassage : Event → Bool
  | accepted _ | gathered _ => true
  | _ => false

def State.outside (s : State) : Outside where
  now := s.now
  history := s.history.filter fun entry ↦ !entry.2.isPassage
  stats := s.stats
  closed? := s.closed?
  closing := s.closing
  clientIdle := s.clientIdle
  held := s.backlog.size

namespace State

theorem filter_terminatedHistory (history : List (Nat × Event)) :
    (terminatedHistory history).filter (fun entry ↦ !entry.2.isPassage) =
      history.filter fun entry ↦ !entry.2.isPassage := by
  induction history with
  | nil => rfl
  | cons entry older ih =>
    obtain ⟨now, event⟩ := entry
    cases event <;>
      simpa [terminatedHistory, Event.terminated, Event.isPassage, List.filter_cons] using ih

theorem outside_terminated (s : State) : s.terminated.outside = s.outside := by
  simp only [outside, clientIdle_terminated, terminated_fields]
  exact congrArg (Outside.mk _ · _ _ _ _ _) (filter_terminatedHistory s.history)

/-! ## Call after call -/

/-- The states in which the scheduler leaves the writer after each of the calls. -/
def performAll? (setup : Setup) (pauses : Nat) : State → List (List Request) → Option (List State)
  | _, [] => some []
  | s, requests :: calls => do
    let t ← s.perform? setup pauses requests
    let later ← performAll? setup pauses t calls
    return t :: later

theorem terminated_performAll? (pauses : Nat) (s : State) (calls : List (List Request)) :
    s.terminated.performAll? setup pauses (calls.map (List.map Request.terminated)) =
      (s.performAll? setup pauses calls).map (List.map terminated) := by
  induction calls generalizing s with
  | nil => rfl
  | cons requests calls ih =>
    simp only [List.map_cons, performAll?, terminated_perform?]
    cases s.perform? setup pauses requests with
    | none => rfl
    | some t =>
      simp only [Option.map_some, Option.bind_eq_bind, Option.bind_some, ih]
      cases t.performAll? setup pauses calls <;> rfl

end State

/-! ## Any order -/

/-- What moves a writer on: a step of a task, the clock, or the client's next call. -/
inductive Impulse where
  | step (task : Task)
  | pass (now : Nat)
  | ask
  deriving DecidableEq, Repr

/-- A writer, and the calls that its client has still to make. -/
structure Progress where
  left : List (List Request)
  state : State

namespace Progress

/-- Follows an impulse, if it can be followed. -/
def impel? (setup : Setup) (progress : Progress) : Impulse → Option Progress
  | .step task => (progress.state.step? setup task).map fun state ↦ { progress with state }
  | .pass now =>
    if progress.state.now ≤ now then
      some { progress with state := { progress.state with now } }
    else none
  | .ask =>
    match progress.left with
    | [] => none
    | requests :: left =>
      if progress.state.clientIdle then
        some { left, state := { progress.state with requests, closed? := none } }
      else none

def follow? (setup : Setup) (progress : Progress) (impulses : List Impulse) : Option Progress :=
  impulses.foldlM (impel? setup) progress

def outside (progress : Progress) : Nat × Outside :=
  (progress.left.length, progress.state.outside)

def terminated (progress : Progress) : Progress where
  left := progress.left.map (List.map Request.terminated)
  state := progress.state.terminated

theorem outside_terminated (progress : Progress) :
    progress.terminated.outside = progress.outside := by
  simp [outside, terminated, State.outside_terminated]

theorem terminated_impel? (progress : Progress) (impulse : Impulse) :
    progress.terminated.impel? setup impulse = (progress.impel? setup impulse).map terminated := by
  obtain ⟨left, s⟩ := progress
  cases impulse with
  | step task =>
    simp only [impel?, terminated, State.terminated_step?, Option.map_map, Function.comp_def]
  | pass now =>
    simp only [impel?, terminated, State.terminated_fields]
    split <;> rfl
  | ask =>
    cases left with
    | nil => rfl
    | cons requests left =>
      simp only [impel?, terminated, List.map_cons, State.clientIdle_terminated]
      split <;> rfl

theorem terminated_follow? (progress : Progress) (impulses : List Impulse) :
    progress.terminated.follow? setup impulses =
      (progress.follow? setup impulses).map terminated := by
  induction impulses generalizing progress with
  | nil => rfl
  | cons impulse impulses ih =>
    simp only [follow?, List.foldlM_cons, terminated_impel?]
    cases progress.impel? setup impulse with
    | none => rfl
    | some next => exact ih next

end Progress

/-! ## One for the other -/

/-- A call stays as it is, or bytes that it writes are written as a record instead. -/
inductive Interchanged : List Request → List Request → Prop
  | same (requests : List Request) : Interchanged requests requests
  | point (record : Bytes) :
    Interchanged (ClientCall.write record).requests (ClientCall.writeAll [.ofBytes record]).requests

theorem Interchanged.terminated {requests others : List Request}
    (interchanged : Interchanged requests others) :
    requests.map Request.terminated = others.map Request.terminated := by
  cases interchanged with
  | same => rfl
  | point record =>
    simp [ClientCall.requests, Encoded.ofBytes, Request.ofEncoded, Line.append, Request.terminated]

theorem terminated_of_interchanged (interchanged : List.Forall₂ Interchanged calls others) :
    calls.map (List.map Request.terminated) = others.map (List.map Request.terminated) := by
  induction interchanged with
  | nil => rfl
  | cons first _ ih => rw [List.map_cons, List.map_cons, first.terminated, ih]

/-- Nobody outside a writer can tell some calls from others. -/
structure Indistinct (setup : Setup) (s : State) (calls others : List (List Request)) : Prop where
  /-- Whatever is done next and whenever, it can be done in both writers, and shows the same. -/
  anyOrder : ∀ impulses,
    (Progress.follow? setup ⟨calls, s⟩ impulses).map Progress.outside =
      (Progress.follow? setup ⟨others, s⟩ impulses).map Progress.outside
  /-- After each call the scheduler leaves both writers alike. -/
  scheduled : ∀ pauses,
    (s.performAll? setup pauses calls).map (List.map State.outside) =
      (s.performAll? setup pauses others).map (List.map State.outside)

theorem indistinct_of_terminated
    (same : calls.map (List.map Request.terminated) = others.map (List.map Request.terminated)) :
    Indistinct setup s calls others where
  anyOrder impulses := by
    have seen (calls : List (List Request)) :
        (Progress.follow? setup ⟨calls, s⟩ impulses).map Progress.outside =
          (Progress.follow? setup ⟨calls.map (List.map Request.terminated), s.terminated⟩
            impulses).map Progress.outside := by
      have commutes : Progress.follow? setup
          ⟨calls.map (List.map Request.terminated), s.terminated⟩ impulses =
            (Progress.follow? setup ⟨calls, s⟩ impulses).map Progress.terminated :=
        Progress.terminated_follow? ⟨calls, s⟩ impulses
      rw [commutes, Option.map_map]
      exact congrArg (Option.map · _) (funext Progress.outside_terminated).symm
    rw [seen calls, same, ← seen others]
  scheduled pauses := by
    have seen (calls : List (List Request)) :
        (s.performAll? setup pauses calls).map (List.map State.outside) =
          (s.terminated.performAll? setup pauses (calls.map (List.map Request.terminated))).map
            (List.map State.outside) := by
      have each : List.map State.outside ∘ List.map State.terminated = List.map State.outside := by
        rw [List.map_comp_map]
        exact congrArg List.map (funext State.outside_terminated)
      rw [State.terminated_performAll?, Option.map_map, each]
    rw [seen calls, same, ← seen others]

structure RawAsEncoded (setup : Setup) (s : State) (calls others : List (List Request)) : Prop
    extends Indistinct setup s calls others where
  added : ∀ (buffer : LineBuffer) record, buffer.add (Line.append [] record) = buffer.add record
  appended : ∀ output record, Line.append output record = output ++ Line.append [] record

theorem rawAsEncoded_of_interchanged (interchanged : List.Forall₂ Interchanged calls others) :
    RawAsEncoded setup s calls others where
  toIndistinct := indistinct_of_terminated (terminated_of_interchanged interchanged)
  added buffer record := buffer.add_terminate record
  appended _ _ := rfl

/-- The second write is empty, and the last one has a newline inside; the first batch is refused and
sent again when the writer is flushed. -/
theorem rawAsEncoded_paired :
    let records : List Bytes := [[65], [], [66, 10], [67, 10, 68]]
    let calls := records.map (fun record ↦ (ClientCall.write record).requests) ++
      [[.flush], [.close]]
    let others := records.map (fun record ↦ (ClientCall.writeAll [.ofBytes record]).requests) ++
      [[.flush], [.close]]
    RawAsEncoded .paired (.start .paired) calls others ∧
      ∃ states alike, (State.start .paired).performAll? .paired 5 calls = some states ∧
        (State.start .paired).performAll? .paired 5 others = some alike ∧
        states.map State.outside = alike.map State.outside ∧
        states.getLast?.map (fun t ↦ (t.now, t.sent)) =
          some (2000000000, [(0, [65, 10, 66, 10]), (0, [67, 10, 68, 10]),
            (1000000000, [65, 10, 66, 10])]) := by
  intro records calls others
  have interchanged : List.Forall₂ Interchanged calls others :=
    .cons (.point [65]) <| .cons (.point []) <| .cons (.point [66, 10]) <|
      .cons (.point [67, 10, 68]) <| .cons (.same [.flush]) <| .cons (.same [.close]) .nil
  have same : RawAsEncoded .paired (.start .paired) calls others :=
    rawAsEncoded_of_interchanged interchanged
  have outcome : ((State.start .paired).performAll? .paired 5 calls).map
      (fun states ↦ states.getLast?.map fun t ↦ (t.now, t.sent)) =
        some (some (2000000000, [(0, [65, 10, 66, 10]), (0, [67, 10, 68, 10]),
          (1000000000, [65, 10, 66, 10])])) := by
    decide +kernel
  obtain ⟨states, performed, seen⟩ := Option.map_eq_some_iff.mp outcome
  have both := same.scheduled 5
  rw [performed] at both
  obtain ⟨alike, performedToo, sameSeen⟩ := Option.map_eq_some_iff.mp both.symm
  exact ⟨same, states, alike, performed, performedToo, sameSeen.symm, seen⟩

end LineDelivery.Pipeline
