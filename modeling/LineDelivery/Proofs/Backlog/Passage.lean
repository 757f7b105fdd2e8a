import LineDelivery.Proofs.Backlog.Bag
import Mathlib.Logic.Relation

/-!
# What turns are made of

Whatever a turn does to a timeline, it does by a few moves: a batch is added, the alarm goes off
when it is due, everything is released, the backlog is closed or given up, nobody listens any more,
or time passes. A sleep is many of them, one after the other.
-/

namespace LineDelivery.Timeline

variable {timeline : Timeline}

/-- Events of this instant, given in order, as the trace keeps them. -/
def stamped (timeline : Timeline) (events : List Backlog.Event) : List (Nat × Backlog.Event) :=
  events.reverse.map (timeline.now, ·)

/-- How it shows that a batch is handed back. -/
def handedBack (timeline : Timeline) (batch : Batch) : Backlog.Event :=
  if timeline.listening then .released batch else .discarded batch

theorem foldl_record (events : List Backlog.Event) (timeline : Timeline) :
    events.foldl record timeline =
      { timeline with trace := timeline.stamped events ++ timeline.trace } := by
  induction events generalizing timeline with
  | nil => rfl
  | cons event events ih => simp [ih, record, stamped]

theorem foldl_handBack (batches : List Batch) (timeline : Timeline) :
    batches.foldl handBack timeline =
      { timeline with
        trace := timeline.stamped (batches.map timeline.handedBack) ++ timeline.trace } := by
  rw [← foldl_record, List.foldl_map]
  induction batches generalizing timeline with
  | nil => rfl
  | cons batch batches ih => exact ih _

/-- Whether somebody takes the batches makes no difference to those who do not look at it. -/
theorem filterMap_handedBack {α : Type} {pick : Backlog.Event → Option α}
    {seen : Batch → Option α} (released : ∀ batch, pick (.released batch) = seen batch)
    (discarded : ∀ batch, pick (.discarded batch) = seen batch) (timeline : Timeline)
    (batches : List Batch) :
    (batches.map timeline.handedBack).filterMap pick = batches.filterMap seen := by
  rw [List.filterMap_map]
  refine List.filterMap_congr fun batch _ ↦ ?_
  unfold handedBack
  dsimp only [Function.comp_apply]
  split
  · exact released batch
  · exact discarded batch

theorem settleWith_eq (timeline : Timeline) (outcome : Backlog × List Batch) :
    timeline.settleWith outcome =
      { timeline with
        backlog := outcome.1
        trace := timeline.stamped (outcome.2.map timeline.handedBack) ++ timeline.trace } :=
  foldl_handBack _ _

theorem perform_add (timeline : Timeline) (batch : Batch) (delay : Nat) :
    timeline.perform (.add batch delay) =
      { timeline with
        backlog := (timeline.backlog.add timeline.now batch delay).1
        trace := timeline.stamped (timeline.backlog.add timeline.now batch delay).2 ++
          timeline.trace } :=
  foldl_record _ _

inductive Move : Timeline → Timeline → Prop
  | pass {timeline : Timeline} (now : Nat) (later : timeline.now ≤ now) :
      Move timeline { timeline with now }
  | add {timeline : Timeline} (batch : Batch) (delay : Nat) :
      Move timeline (timeline.perform (.add batch delay))
  | fire {timeline : Timeline} (due : timeline.backlog.alarmDue timeline.now) :
      Move timeline (timeline.settleWith (timeline.backlog.fire timeline.now))
  | releaseAll {timeline : Timeline} :
      Move timeline (timeline.settleWith timeline.backlog.releaseAll)
  | close {timeline : Timeline} : Move timeline { timeline with backlog := timeline.backlog.close }
  | stopListening {timeline : Timeline} : Move timeline { timeline with listening := false }
  | abandon {timeline : Timeline} :
      Move timeline { timeline with backlog := (Backlog.empty timeline.backlog.limit).close }

/-- Any number of moves. -/
abbrev Moves : Timeline → Timeline → Prop :=
  Relation.ReflTransGen Move

/-- What a sleep is made of. -/
inductive Lapse : Timeline → Timeline → Prop
  | pass {timeline : Timeline} (now : Nat) (later : timeline.now ≤ now) :
      Lapse timeline { timeline with now }
  | fire {timeline : Timeline} (due : timeline.backlog.alarmDue timeline.now) :
      Lapse timeline (timeline.settleWith (timeline.backlog.fire timeline.now))

abbrev Lapses : Timeline → Timeline → Prop :=
  Relation.ReflTransGen Lapse

theorem Lapse.move {next : Timeline} (lapse : Lapse timeline next) : Move timeline next := by
  cases lapse with
  | pass now later => exact .pass now later
  | fire due => exact .fire due

theorem Lapses.moves {next : Timeline} (lapses : Lapses timeline next) : Moves timeline next :=
  Relation.ReflTransGen.mono (fun _ _ ↦ Lapse.move) _ _ lapses

theorem settle_lapses (timeline : Timeline) : Lapses timeline timeline.settle := by
  unfold settle
  split
  · next due => exact .single (.fire due)
  · exact .refl

theorem sleepUntil_lapses {target : Nat} (alarms : Nat) (later : timeline.now ≤ target) :
    Lapses timeline (timeline.sleepUntil target alarms) := by
  induction alarms generalizing timeline with
  | zero => exact .single (.pass target later)
  | succ alarms ih =>
    unfold sleepUntil
    split
    · exact .single (.pass target later)
    · next alarm isSet =>
      split
      · next inTime =>
        let woken := { timeline with now := max timeline.now (Time.wakeUp alarm) }
        have now : woken.settle.now = woken.now := by
          unfold settle
          split
          · rw [settleWith_eq]
          · rfl
        have wakes : Lapses timeline woken := .single (.pass _ (Nat.le_max_left _ _))
        exact (wakes.trans woken.settle_lapses).trans (ih (now ▸ Nat.max_le.mpr ⟨later, inTime⟩))
      · exact .single (.pass target later)

theorem sleep_lapses (timeline : Timeline) (duration : Nat) :
    Lapses timeline (timeline.take (.command (.sleep duration))) :=
  sleepUntil_lapses _ (Nat.le_trans (Time.le_deadline _ _) (Time.le_wakeUp _))

theorem now_le_awaited (timeline : Timeline) (duration : Nat) :
    timeline.now ≤ timeline.awaited duration := by
  have later := (Time.le_deadline timeline.now duration).trans (Time.le_wakeUp _)
  unfold awaited
  dsimp only
  split
  · exact later
  · exact Nat.le_min.mpr ⟨later, Nat.le_max_left _ _⟩

theorem await_lapses (timeline : Timeline) (duration : Nat) :
    Lapses timeline (timeline.take (.await duration)) :=
  .single (.pass _ (timeline.now_le_awaited duration))

theorem take_moves (timeline : Timeline) (turn : Turn) : Moves timeline (timeline.take turn) := by
  match turn with
  | .command (.add batch delay) => exact .single (.add batch delay)
  | .command .releaseAll => exact .single .releaseAll
  | .command .close => exact .single .close
  | .command (.sleep duration) => exact (timeline.sleep_lapses duration).moves
  | .command .stopListening => exact .single .stopListening
  | .command .abandon => exact .single .abandon
  | .alarm => exact timeline.settle_lapses.moves
  | .await duration => exact (timeline.await_lapses duration).moves

theorem run_moves (limit : Nat) (turns : List Turn) : Moves (start limit) (run limit turns) := by
  induction turns using List.reverseRecOn with
  | nil => exact .refl
  | append_singleton turns turn ih =>
    rw [run, List.foldl_append]
    exact ih.trans (take_moves _ turn)

end LineDelivery.Timeline
