import LineDelivery.Proofs.Backlog.Upkeep

/-!
# What a closed backlog holds

A closed backlog refuses batches and has no alarm, so neither additions nor the passing of time
touch it, and closing it once more tells how much it still holds. A release does not ask whether the
backlog is closed: the first one hands back everything at once, and then nothing is left to send.
-/

namespace LineDelivery

namespace Backlog

variable {backlog : Backlog}

theorem releaseAll_of_empty (sound : backlog.Sound) (measured : backlog.Measured)
    (none : backlog.items = []) : backlog.releaseAll = (backlog, []) := by
  have alarm : backlog.alarm = Option.none := by simp [sound.alarm, alarmFor, none]
  have size : backlog.size = 0 := by simp [measured.size, none]
  simp only [releaseAll, none, List.map_nil]
  rw [← none, ← size, ← alarm]

end Backlog

namespace Timeline

theorem take_releaseAll (timeline : Timeline) :
    timeline.take (.command .releaseAll) =
      { timeline with
        backlog := timeline.backlog.releaseAll.1
        trace := timeline.stamped (timeline.backlog.items.map fun item ↦
          timeline.handedBack item.batch) ++ timeline.trace } := by
  rw [take, perform, settleWith_eq]
  simp [Backlog.releaseAll, Function.comp_def]

theorem backlog_take_releaseAll (timeline : Timeline) :
    (timeline.take (.command .releaseAll)).backlog = timeline.backlog.releaseAll.1 := by
  rw [take_releaseAll]

/-- Nothing happened to the backlog since, and nothing was sent or reported. -/
structure Untouched (held timeline : Timeline) : Prop where
  backlog : timeline.backlog = held.backlog
  trace : timeline.trace = held.trace

/-- A turn that a closed backlog with these items does not notice. -/
def Turn.LeavesAlone (turn : Turn) (items : List Backlog.Item) : Prop :=
  turn ≠ .command .abandon ∧ (turn = .command .releaseAll → items = [])

variable {limit : Nat} {held timeline : Timeline}

namespace Untouched

theorem take (untouched : Untouched held timeline) (upkept : Upkept limit held)
    (closed : held.backlog.closed) {turn : Turn} (alone : turn.LeavesAlone held.backlog.items) :
    Untouched held (timeline.take turn) := by
  have same := untouched.backlog
  have unset : timeline.backlog.alarm = none := same ▸ upkept.sound.alarm_of_closed closed
  match turn with
  | .command (.add batch delay) =>
    unfold Timeline.take
    dsimp only
    rw [perform_add, same, Backlog.add_of_useless (.inr closed)]
    exact ⟨rfl, untouched.trace⟩
  | .command .releaseAll =>
    have none : held.backlog.items = [] := alone.2 rfl
    rw [take_releaseAll, same, none,
      Backlog.releaseAll_of_empty upkept.sound upkept.limited.toMeasured none]
    exact ⟨rfl, untouched.trace⟩
  | .command .close =>
    have closes : timeline.backlog.close = held.backlog :=
      same ▸ upkept.sound.close_eq_self closed
    exact ⟨closes, untouched.trace⟩
  | .command (.sleep duration) =>
    unfold Timeline.take perform
    dsimp only
    cases timeline.backlog.items.length <;> simp only [sleepUntil, unset] <;>
      exact ⟨same, untouched.trace⟩
  | .command .stopListening => exact ⟨same, untouched.trace⟩
  | .command .abandon => exact absurd rfl alone.1
  | .alarm =>
    have quiet : timeline.backlog.alarmDue timeline.now = false := by
      simp [Backlog.alarmDue, unset]
    simpa [Timeline.take, settle, quiet] using untouched
  | .await _ => exact ⟨same, untouched.trace⟩

theorem turns (untouched : Untouched held timeline) (upkept : Upkept limit held)
    (closed : held.backlog.closed) {turns : List Turn} (staying : .command .abandon ∉ turns)
    (unreleased : .command .releaseAll ∈ turns → held.backlog.items = []) :
    Untouched held (turns.foldl Timeline.take timeline) := by
  induction turns generalizing timeline with
  | nil => exact untouched
  | cons turn turns ih =>
    obtain ⟨leaves, stays⟩ := List.ne_and_not_mem_of_not_mem_cons staying
    have alone : turn.LeavesAlone held.backlog.items :=
      ⟨leaves ∘ Eq.symm, fun releases ↦ unreleased (releases ▸ List.mem_cons_self)⟩
    exact ih (untouched.take upkept closed alone) stays
      fun released ↦ unreleased (List.mem_cons_of_mem _ released)

end Untouched

theorem run_append_cons (limit : Nat) (before : List Turn) (turn : Turn) (after : List Turn) :
    run limit (before ++ turn :: after) = after.foldl take ((run limit before).take turn) :=
  List.foldl_append

/-- A release does not open a closed backlog, and leaves it nothing to send. -/
theorem untouched_of_releaseAll (upkept : Upkept limit timeline) (closed : timeline.backlog.closed)
    {turns : List Turn} (staying : .command .abandon ∉ turns) :
    Untouched (timeline.take (.command .releaseAll))
      (turns.foldl take (timeline.take (.command .releaseAll))) := by
  have released := timeline.backlog_take_releaseAll
  have emptied : (timeline.take (.command .releaseAll)).backlog.items = [] :=
    congrArg Backlog.items released
  have isClosed : (timeline.take (.command .releaseAll)).backlog.closed := by rwa [released]
  exact .turns ⟨rfl, rfl⟩ (upkept.take _) isClosed staying fun _ ↦ emptied

/-- As long as nobody asks for a release while a closed backlog holds something, it sends and
reports nothing, whatever else is asked of it and however long that takes. The first release hands
back all it holds, and nothing comes after that. -/
theorem unsent_of_close (limit : Nat) {before after : List Turn} {lines : Nat}
    (closes : (run limit before).answer .close = some lines)
    (staying : .command .abandon ∉ after) :
    let held := run limit before
    let last := run limit (before ++ .command .close :: after)
    ((.command .releaseAll ∈ after → held.backlog.items = []) →
      last.trace = held.trace ∧ last.backlog.size = lines ∧ last.answer .close = some lines) ∧
    ∀ calm rest, after = calm ++ .command .releaseAll :: rest → .command .releaseAll ∉ calm →
      let moment := run limit (before ++ .command .close :: calm)
      last.trace = moment.stamped (held.backlog.items.map fun item ↦
          moment.handedBack item.batch) ++ held.trace ∧
        last.backlog.size = 0 ∧ last.answer .close = some 0 := by
  obtain rfl := Option.some.inj closes
  have shut := (Upkept.run limit before).take (.command .close)
  refine ⟨fun unreleased ↦ ?_, fun calm rest split unreleased ↦ ?_⟩
  · have untouched := Untouched.turns ⟨rfl, rfl⟩ shut rfl staying unreleased
    rw [← run_append_cons] at untouched
    have size := congrArg Backlog.size untouched.backlog
    exact ⟨untouched.trace, size, congrArg some size⟩
  · subst split
    obtain ⟨calmStays, restStays⟩ : .command .abandon ∉ calm ∧ .command .abandon ∉ rest := by
      simpa using staying
    have calmly := Untouched.turns ⟨rfl, rfl⟩ shut rfl calmStays fun released ↦
      absurd released unreleased
    rw [← run_append_cons] at calmly
    have onwards := untouched_of_releaseAll (.run limit (before ++ .command .close :: calm))
      (congrArg Backlog.closed calmly.backlog) restStays
    rw [← run_append_cons, List.append_assoc, List.cons_append] at onwards
    have size := congrArg Backlog.size (onwards.backlog.trans (backlog_take_releaseAll _))
    refine ⟨?_, size, congrArg some size⟩
    rw [onwards.trace, take_releaseAll, calmly.trace, calmly.backlog]
    rfl

/-- A batch of one line, to be tried again after a second. -/
def postponed : Turn :=
  let batch := { serial := 0, chunks := [[97, 10]], remaining := 1, expires := 60000000000 }
  .command (.add batch 1000000000)

theorem unsent_of_close_postponed :
    (run 10 [postponed]).answer .close = some 1 ∧
      (run 10 [postponed, .command .close, .command (.sleep 5000000000), postponed]).trace =
        (run 10 [postponed]).trace :=
  have closes : (run 10 [postponed]).answer .close = some 1 := by decide
  have staying : .command .abandon ∉ [.command (.sleep 5000000000), postponed] := by decide
  ⟨closes, ((unsent_of_close 10 closes staying).1 (by decide)).1⟩

/-- A closed backlog with one line, which the next release sends after all. -/
theorem sent_after_close :
    (run 10 [postponed]).answer .close = some 1 ∧
      (run 10 [postponed, .command .close, .command .releaseAll]).trace ≠
        (run 10 [postponed]).trace ∧
      (run 10 [postponed, .command .close, .command .releaseAll]).answer .close = some 0 := by
  decide

end Timeline

end LineDelivery
