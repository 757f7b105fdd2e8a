import LineDelivery.Proofs.Backlog.Holdings
import Mathlib.Data.List.TakeWhile
import Mathlib.Order.Nat

/-!
# The alarm of a backlog

The items stand in the order of their next attempts, none later than its batch expires, and the
alarm of an open backlog stands at the first of them. Every operation keeps this, so an alarm that
is not due says that no item is.
-/

namespace LineDelivery.Backlog

/-- No item comes before one that has to be tried earlier. -/
def InOrder (items : List Item) : Prop :=
  items.Pairwise fun first second ↦ first.retryTime ≤ second.retryTime

structure Sound (backlog : Backlog) : Prop where
  inOrder : InOrder backlog.items
  inTime : ∀ item ∈ backlog.items, item.retryTime ≤ item.batch.expires
  alarm : backlog.alarm = if backlog.closed then none else alarmFor backlog.items

theorem InOrder.lt_of_mem_dropWhile {items : List Item} (inOrder : InOrder items) {time : Nat}
    {item : Item} (behind : item ∈ items.dropWhile fun held ↦ held.retryTime ≤ time) :
    time < item.retryTime := by
  induction items with
  | nil => simp at behind
  | cons first rest ih =>
    obtain ⟨earliest, ordered⟩ := List.pairwise_cons.mp inOrder
    by_cases early : first.retryTime ≤ time
    · rw [List.dropWhile_cons_of_pos (by simpa using early)] at behind
      exact ih ordered behind
    · rw [List.dropWhile_cons_of_neg (by simpa using early)] at behind
      have late : time < first.retryTime := Nat.lt_of_not_le early
      rcases List.mem_cons.mp behind with rfl | later
      · exact late
      · exact late.trans_le (earliest item later)

theorem le_of_mem_takeWhile {items : List Item} {time : Nat} {item : Item}
    (ahead : item ∈ items.takeWhile fun held ↦ held.retryTime ≤ time) : item.retryTime ≤ time := by
  simpa using List.mem_takeWhile_imp ahead

/-- An item goes behind all that are not to be tried later. -/
theorem InOrder.insert {items : List Item} (inOrder : InOrder items) (item : Item) :
    InOrder ((items.takeWhile fun held ↦ held.retryTime ≤ item.retryTime) ++
      item :: items.dropWhile fun held ↦ held.retryTime ≤ item.retryTime) := by
  refine List.pairwise_append.mpr ⟨?_, ?_, ?_⟩
  · exact inOrder.sublist (List.takeWhile_sublist _)
  · refine List.pairwise_cons.mpr ⟨?_, inOrder.sublist (List.dropWhile_sublist _)⟩
    intro later behind
    exact (inOrder.lt_of_mem_dropWhile behind).le
  · intro earlier ahead later behind
    have early := le_of_mem_takeWhile ahead
    rcases List.mem_cons.mp behind with rfl | behind
    · exact early
    · exact early.trans (inOrder.lt_of_mem_dropWhile behind).le

namespace Sound

variable {backlog : Backlog} {now : Nat}

theorem empty (limit : Nat) : Sound (.empty limit) :=
  ⟨.nil, by simp [Backlog.empty], rfl⟩

theorem insert (sound : backlog.Sound) (opened : backlog.closed = false) {room : Eviction}
    (kept : room.kept.Sublist backlog.items)
    (head : room.headRemoved = false → room.kept.head? = backlog.items.head?) {item : Item}
    (inTime : item.retryTime ≤ item.batch.expires) : (backlog.insert room item).Sound where
  inOrder := InOrder.insert (sound.inOrder.sublist kept) item
  inTime held isHeld := by
    rcases List.mem_cons.mp ((insert_items_perm backlog room item).subset isHeld) with rfl | old
    · exact inTime
    · exact sound.inTime held (kept.subset old)
  alarm := by
    simp only [Backlog.insert, opened, Bool.false_eq_true, if_false]
    split
    · rfl
    · next unmoved =>
      -- the head is the old one, at which the alarm stands already
      simp only [Bool.or_eq_true, List.isEmpty_iff, not_or, Bool.not_eq_true] at unmoved
      have same : room.kept.head? = backlog.items.head? := head unmoved.1
      have old := sound.alarm
      simp only [opened, Bool.false_eq_true, if_false] at old
      rw [old, alarmFor, alarmFor, ← same]
      cases items : room.kept with
      | nil => simp [items] at unmoved
      | cons first rest =>
        have early : first.retryTime ≤ item.retryTime := by
          by_contra late
          simp [items, late] at unmoved
        simp [early]

theorem add (sound : backlog.Sound) (now : Nat) (batch : Batch) (delay : Nat) :
    (backlog.add now batch delay).1.Sound := by
  have inTime : (Item.schedule now batch delay).retryTime ≤ batch.expires :=
    Nat.min_le_right _ _
  generalize backlog.add now batch delay = result, backlog.add_added now batch delay = added
  cases added with
  | ignored => exact sound
  | refused => exact sound
  | taken _ opened _ =>
    exact sound.insert opened (makeRoom_kept_sublist _ _) head?_makeRoom inTime

theorem fire (sound : backlog.Sound) (opened : backlog.closed = false) (now : Nat) :
    (backlog.fire now).1.Sound where
  inOrder := sound.inOrder.sublist (List.dropWhile_sublist _)
  inTime item left := sound.inTime item ((List.dropWhile_sublist _).subset left)
  alarm := by simp [Backlog.fire, opened]

theorem releaseAll (backlog : Backlog) : (backlog.releaseAll).1.Sound where
  inOrder := .nil
  inTime := by simp [Backlog.releaseAll]
  alarm := by cases closed : backlog.closed <;> simp [Backlog.releaseAll, alarmFor, closed]

theorem close (sound : backlog.Sound) : backlog.close.Sound where
  inOrder := sound.inOrder
  inTime := sound.inTime
  alarm := by simp [Backlog.close]

theorem alarm_of_closed (sound : backlog.Sound) (closed : backlog.closed) :
    backlog.alarm = none := by
  simp [sound.alarm, closed]

theorem close_eq_self (sound : backlog.Sound) (closed : backlog.closed) :
    backlog.close = backlog := by
  have still := sound.alarm_of_closed closed
  simp [Backlog.close, ← closed, ← still]

theorem opened_of_alarmDue (sound : backlog.Sound) (due : backlog.alarmDue now) :
    backlog.closed = false := by
  cases closed : backlog.closed with
  | false => rfl
  | true => simp [alarmDue, sound.alarm, closed] at due

/-- When the alarm is not due, no item is. -/
theorem lt_retryTime (sound : backlog.Sound) (opened : backlog.closed = false)
    (quiet : backlog.alarmDue now = false) {item : Item} (held : item ∈ backlog.items) :
    now < item.retryTime := by
  simp only [alarmDue, sound.alarm, opened, Bool.false_eq_true, if_false, alarmFor] at quiet
  have inOrder := sound.inOrder
  cases items : backlog.items with
  | nil => simp [items] at held
  | cons first rest =>
    rw [items] at held inOrder quiet
    have late : now < first.retryTime := by simpa using quiet
    rcases List.mem_cons.mp held with rfl | behind
    · exact late
    · exact late.trans_le ((List.pairwise_cons.mp inOrder).1 item behind)

end Sound

end LineDelivery.Backlog
