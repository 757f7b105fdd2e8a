import LineDelivery.Proofs.Backlog.Alarm
import LineDelivery.Proofs.Backlog.Passage
import LineDelivery.Proofs.Backlog.Room

/-!
# The upkeep of a backlog

Whatever moves a timeline makes, its backlog stays sound, measured and within its limit. Items of
one instant stand in the order in which they came, since each goes behind its equals and none ever
overtakes another.
-/

namespace LineDelivery

namespace Backlog

def Event.takenIn? : Event → Option Item
  | .scheduled item _ => some item
  | .removed _ _ | .released _ | .discarded _ => none

/-- Among the items of one instant, a new one is the last. -/
theorem InOrder.filter_insert {items : List Item} (inOrder : InOrder items) (item : Item)
    (time : Nat) :
    ((items.takeWhile fun held ↦ held.retryTime ≤ item.retryTime) ++
        item :: items.dropWhile fun held ↦ held.retryTime ≤ item.retryTime).filter
          (·.retryTime == time) =
      items.filter (·.retryTime == time) ++ if item.retryTime = time then [item] else [] := by
  by_cases same : item.retryTime = time
  · have behind : (items.dropWhile fun held ↦ held.retryTime ≤ item.retryTime).filter
        (·.retryTime == time) = [] := by
      refine List.filter_eq_nil_iff.mpr fun later behind ↦ ?_
      have late := inOrder.lt_of_mem_dropWhile behind
      simp only [beq_iff_eq]
      omega
    have split := congrArg (List.filter (·.retryTime == time)) (List.takeWhile_append_dropWhile
      (p := fun held : Item ↦ held.retryTime ≤ item.retryTime) (l := items))
    rw [List.filter_append, behind, List.append_nil] at split
    rw [List.filter_append, List.filter_cons_of_pos (by simpa using same), behind, split,
      if_pos same]
  · rw [List.filter_append, List.filter_cons_of_neg (by simpa using same), ← List.filter_append,
      List.takeWhile_append_dropWhile, if_neg same, List.append_nil]

end Backlog

namespace Timeline

/-- The items that were ever taken in, in the order in which they came. -/
def takenIn (timeline : Timeline) : List Backlog.Item :=
  timeline.trace.reverse.filterMap (·.2.takenIn?)

theorem takenIn_note (timeline : Timeline) (backlog : Backlog) (events : List Backlog.Event) :
    takenIn { timeline with backlog, trace := timeline.stamped events ++ timeline.trace } =
      timeline.takenIn ++ events.filterMap Backlog.Event.takenIn? := by
  simp [takenIn, stamped, List.filterMap_map]

/-- What a backlog of so many lines keeps up from one move to the next. -/
structure Upkept (limit : Nat) (timeline : Timeline) : Prop where
  sound : timeline.backlog.Sound
  limited : timeline.backlog.Limited limit
  inTurn : ∀ time, (timeline.backlog.items.filter (·.retryTime == time)).Sublist timeline.takenIn

namespace Upkept

variable {limit : Nat} {timeline : Timeline}

theorem start (limit : Nat) : Upkept limit (.start limit) where
  sound := .empty limit
  limited := .empty limit
  inTurn _ := List.nil_sublist _

theorem add (upkept : Upkept limit timeline) (batch : Batch) (delay : Nat) :
    Upkept limit (timeline.perform (.add batch delay)) := by
  rw [perform_add]
  refine ⟨upkept.sound.add _ _ _, upkept.limited.add _ _ _, fun time ↦ ?_⟩
  rw [takenIn_note]
  generalize timeline.backlog.add timeline.now batch delay = result,
    timeline.backlog.add_added timeline.now batch delay = added
  cases added with
  | ignored => simpa using upkept.inTurn time
  | refused => simpa [List.filterMap_cons, Backlog.Event.takenIn?] using upkept.inTurn time
  | taken =>
    have kept := timeline.backlog.makeRoom_kept_sublist
      (Backlog.Item.schedule timeline.now batch delay).lineCount
    have inOrder : Backlog.InOrder _ := upkept.sound.inOrder.sublist kept
    have older := (kept.filter (·.retryTime == time)).trans (upkept.inTurn time)
    dsimp only [Backlog.insert]
    rw [inOrder.filter_insert]
    have newer : (if (Backlog.Item.schedule timeline.now batch delay).retryTime = time then
        [Backlog.Item.schedule timeline.now batch delay] else []).Sublist
          [Backlog.Item.schedule timeline.now batch delay] := by
      split
      · exact .refl _
      · exact List.nil_sublist _
    simpa [List.filterMap_map, Function.comp_def, List.filterMap_cons, Backlog.Event.takenIn?]
      using older.append newer

theorem handBack (upkept : Upkept limit timeline) {outcome : Backlog × List Batch}
    (sound : outcome.1.Sound) (limited : outcome.1.Limited limit)
    (fewer : outcome.1.items.Sublist timeline.backlog.items) :
    Upkept limit (timeline.settleWith outcome) := by
  rw [settleWith_eq]
  refine ⟨sound, limited, fun time ↦ ?_⟩
  have none : (outcome.2.map timeline.handedBack).filterMap Backlog.Event.takenIn? = [] :=
    (timeline.filterMap_handedBack (fun _ ↦ rfl) (fun _ ↦ rfl) _).trans (List.filterMap_none _)
  rw [takenIn_note, none, List.append_nil]
  exact (fewer.filter _).trans (upkept.inTurn time)

theorem move {next : Timeline} (upkept : Upkept limit timeline) (move : Move timeline next) :
    Upkept limit next := by
  cases move with
  | pass | stopListening => exact ⟨upkept.sound, upkept.limited, upkept.inTurn⟩
  | add batch delay => exact upkept.add batch delay
  | fire due =>
    have opened := upkept.sound.opened_of_alarmDue due
    exact upkept.handBack (upkept.sound.fire opened _) (upkept.limited.fire _)
      (List.dropWhile_sublist _)
  | releaseAll =>
    exact upkept.handBack (.releaseAll _) upkept.limited.releaseAll (List.nil_sublist _)
  | close => exact ⟨upkept.sound.close, upkept.limited.close, upkept.inTurn⟩
  | abandon =>
    have limited := (Backlog.Limited.empty timeline.backlog.limit).close
    exact ⟨(Backlog.Sound.empty _).close, upkept.limited.limit_eq ▸ limited,
      fun _ ↦ List.nil_sublist _⟩

theorem moves {next : Timeline} (upkept : Upkept limit timeline) (moves : Moves timeline next) :
    Upkept limit next := by
  induction moves with
  | refl => exact upkept
  | tail _ move ih => exact ih.move move

theorem take (upkept : Upkept limit timeline) (turn : Turn) : Upkept limit (timeline.take turn) :=
  upkept.moves (take_moves timeline turn)

theorem run (limit : Nat) (turns : List Turn) : Upkept limit (run limit turns) :=
  (start limit).moves (run_moves limit turns)

end Upkept

/-- What a backlog looks like to those who know its limit and what was taken in. -/
structure Consistent (limit : Nat) (timeline : Timeline) : Prop where
  inOrder : timeline.backlog.items.Pairwise fun first second ↦ first.retryTime ≤ second.retryTime
  inTurn : ∀ time, (timeline.backlog.items.filter (·.retryTime == time)).Sublist timeline.takenIn
  counted : ∀ item ∈ timeline.backlog.items,
    item.lineCount = Line.count item.batch.lines ∧ 1 ≤ item.lineCount
  inTime : ∀ item ∈ timeline.backlog.items, item.retryTime ≤ item.batch.expires
  size : timeline.backlog.size = (timeline.backlog.items.map (·.lineCount)).sum
  size_le : timeline.backlog.size ≤ limit
  isEmpty_iff : timeline.backlog.isEmpty ↔ timeline.backlog.size = 0
  armed : timeline.backlog.closed = false →
    timeline.backlog.alarm = timeline.backlog.items.head?.map (·.retryTime)
  unarmed : timeline.backlog.closed → timeline.backlog.alarm = none

theorem Upkept.consistent {limit : Nat} {timeline : Timeline} (upkept : Upkept limit timeline) :
    Consistent limit timeline where
  inOrder := upkept.sound.inOrder
  inTurn := upkept.inTurn
  counted item held := ⟨upkept.limited.lines item held, upkept.limited.filled item held⟩
  inTime := upkept.sound.inTime
  size := upkept.limited.size.trans (Backlog.totalLines_eq_sum _)
  size_le := upkept.limited.size_le
  isEmpty_iff := upkept.limited.isEmpty_iff
  armed opened := by simpa [opened, Backlog.alarmFor] using upkept.sound.alarm
  unarmed closed := by simpa [closed] using upkept.sound.alarm

/-- Wherever a timeline gets, be it between two alarms of one sleep, its backlog is consistent. -/
theorem consistent_of_moves (limit : Nat) {timeline : Timeline}
    (moves : Moves (start limit) timeline) : Consistent limit timeline :=
  ((Upkept.start limit).moves moves).consistent

/-- Two batches of one instant and an earlier one; the last takes the place of the first. -/
def contested : List Turn :=
  let batch (serial lines expires : Nat) : Batch :=
    { serial, chunks := List.replicate lines [65, 10], remaining := 1, expires }
  [.command (.add (batch 0 1 5000000) 5000000), .command (.add (batch 1 1 9000000) 5000000),
    .command (.sleep 1000000), .command (.add (batch 2 1 6000000) 2000000),
    .command (.add (batch 3 1 9000000) 4000000)]

theorem consistent_of_moves_contested :
    (run 3 contested).backlog.items.map (·.batch.serial) = [2, 1, 3] ∧
      (run 3 contested).backlog.alarm = some 3000000 ∧ Consistent 3 (run 3 contested) :=
  ⟨by decide +kernel, by decide +kernel, consistent_of_moves 3 (run_moves 3 contested)⟩

end Timeline

end LineDelivery
