import LineDelivery.Proofs.Backlog.Measure
import LineDelivery.Proofs.Line.Count

/-!
# Room in a backlog

Making room goes on until as few lines are left as were wanted, which the removal of all items would
reach in any case. So a backlog never holds more lines than its limit, and since every item has a
line, it has none left only when it is empty.
-/

namespace LineDelivery.Backlog

namespace Eviction

variable {eviction : Eviction}

theorem nextVictim?_eq (filled : eviction.kept ≠ []) :
    eviction.nextVictim? = some (eviction.kept.minIdxOn (·.batch.expires) filled) := by
  unfold nextVictim?
  generalize eviction.kept = items at filled
  cases items with
  | nil => exact absurd rfl filled
  | cons item rest => rfl

theorem removeAt_eq {position : Nat} (inside : position < eviction.kept.length) :
    eviction.removeAt position =
      { kept := eviction.kept.eraseIdx position
        size := eviction.size - eviction.kept[position].lineCount
        removed := eviction.removed ++ [eviction.kept[position]]
        headRemoved := eviction.headRemoved || position == 0 } := by
  simp [removeAt, inside]

/-- With as many removals as there are items, the wanted size is reached. -/
theorem size_runTo_le (measured : eviction.Measured) (wanted : Nat) {removals : Nat}
    (enough : eviction.kept.length ≤ removals) :
    (eviction.runTo wanted removals).size ≤ wanted := by
  induction removals generalizing eviction with
  | zero =>
    have none : eviction.kept = [] := List.eq_nil_of_length_eq_zero (Nat.le_zero.mp enough)
    rw [runTo, measured, none]
    exact Nat.zero_le _
  | succ removals ih =>
    unfold runTo
    split
    · assumption
    · next many =>
      have filled : eviction.kept ≠ [] := by
        intro none
        rw [measured, none] at many
        exact many (Nat.zero_le _)
      have inside := List.minIdxOn_lt_length (f := (·.batch.expires)) filled
      rw [nextVictim?_eq filled]
      apply ih (measured.removeAt _)
      rw [removeAt_eq inside, List.length_eraseIdx_of_lt inside]
      omega

end Eviction

theorem Measured.size_makeRoom_add_le {backlog : Backlog} (measured : backlog.Measured)
    {incoming : Nat} (fits : incoming ≤ backlog.limit) :
    (backlog.makeRoom incoming).size + incoming ≤ backlog.limit := by
  unfold Backlog.makeRoom
  dsimp only
  split
  · assumption
  · have start : (Eviction.start backlog.items backlog.size).Measured := measured.size
    have few := Eviction.size_runTo_le start (backlog.wantedSize incoming) (Nat.le_refl _)
    have wanted : backlog.wantedSize incoming ≤ backlog.limit - incoming := Nat.min_le_right _ _
    exact Nat.add_le_of_le_sub fits (Nat.le_trans few wanted)

@[simp]
theorem limit_add (backlog : Backlog) (now : Nat) (batch : Batch) (delay : Nat) :
    (backlog.add now batch delay).1.limit = backlog.limit := by
  generalize backlog.add now batch delay = result, backlog.add_added now batch delay = added
  cases added <;> rfl

/-- The lines are counted and within the limit, and every item has some. -/
structure Limited (limit : Nat) (backlog : Backlog) : Prop extends Measured backlog where
  limit_eq : backlog.limit = limit
  size_le : backlog.size ≤ limit
  filled : ∀ item ∈ backlog.items, 0 < item.lineCount

namespace Limited

variable {limit : Nat} {backlog : Backlog}

theorem empty (limit : Nat) : Limited limit (.empty limit) :=
  { Measured.empty limit with
    limit_eq := rfl
    size_le := Nat.zero_le _
    filled := by simp [Backlog.empty] }

theorem size_add_le (limited : backlog.Limited limit) (now : Nat) (batch : Batch) (delay : Nat) :
    (backlog.add now batch delay).1.size ≤ limit := by
  generalize backlog.add now batch delay = result, backlog.add_added now batch delay = added
  cases added with
  | taken filled opened fits => exact limited.limit_eq ▸ limited.size_makeRoom_add_le fits
  | _ => exact limited.size_le

theorem filled_add (limited : backlog.Limited limit) (now : Nat) (batch : Batch) (delay : Nat) :
    ∀ item ∈ (backlog.add now batch delay).1.items, 0 < item.lineCount := by
  generalize backlog.add now batch delay = result, backlog.add_added now batch delay = added
  cases added with
  | taken filled =>
    intro item held
    rcases List.mem_cons.mp ((insert_items_perm _ _ _).subset held) with rfl | old
    · exact Line.count_pos filled
    · exact limited.filled item ((makeRoom_kept_sublist _ _).subset old)
  | _ => exact limited.filled

theorem add (limited : backlog.Limited limit) (now : Nat) (batch : Batch) (delay : Nat) :
    (backlog.add now batch delay).1.Limited limit :=
  { limited.toMeasured.add now batch delay with
    limit_eq := (limit_add _ _ _ _).trans limited.limit_eq
    size_le := limited.size_add_le now batch delay
    filled := limited.filled_add now batch delay }

theorem fire (limited : backlog.Limited limit) (now : Nat) : (backlog.fire now).1.Limited limit :=
  { limited.toMeasured.fire now with
    limit_eq := limited.limit_eq
    size_le := Nat.le_trans (Nat.sub_le _ _) limited.size_le
    filled := fun item left ↦ limited.filled item ((List.dropWhile_sublist _).subset left) }

theorem releaseAll (limited : backlog.Limited limit) : backlog.releaseAll.1.Limited limit :=
  { Measured.releaseAll backlog with
    limit_eq := limited.limit_eq
    size_le := Nat.zero_le _
    filled := by simp [Backlog.releaseAll] }

theorem close (limited : backlog.Limited limit) : backlog.close.Limited limit :=
  { limited.toMeasured.close with
    limit_eq := limited.limit_eq
    size_le := limited.size_le
    filled := limited.filled }

/-- There are no lines exactly when there are no items. -/
theorem isEmpty_iff (limited : backlog.Limited limit) : backlog.isEmpty ↔ backlog.size = 0 := by
  rw [limited.size, isEmpty]
  cases items : backlog.items with
  | nil => simp
  | cons first rest =>
    have some : 0 < first.lineCount := limited.filled first (by simp [items])
    have lines : totalLines (first :: rest) ≠ 0 := Nat.ne_zero_of_lt (Nat.lt_add_right _ some)
    simp only [List.isEmpty_cons, Bool.false_eq_true, lines]

end Limited

end LineDelivery.Backlog
