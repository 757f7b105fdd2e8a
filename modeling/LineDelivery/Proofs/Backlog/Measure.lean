import LineDelivery.Proofs.Backlog.Holdings
import Mathlib.Algebra.GroupWithZero.Nat

/-!
# The lines of a backlog

The size of a backlog is the number of lines of the items it holds, however these come and go.
-/

namespace LineDelivery.Backlog

section

variable (item : Item) (first second : List Item)

theorem totalLines_eq_sum : totalLines first = (first.map Item.lineCount).sum :=
  List.sum_eq_foldr.symm

@[simp]
theorem totalLines_nil : totalLines [] = 0 := rfl

@[simp]
theorem totalLines_cons : totalLines (item :: first) = item.lineCount + totalLines first := rfl

@[simp]
theorem totalLines_append :
    totalLines (first ++ second) = totalLines first + totalLines second := by
  simp [totalLines_eq_sum]

end

theorem totalLines_perm {first second : List Item} (perm : first.Perm second) :
    totalLines first = totalLines second := by
  rw [totalLines_eq_sum, totalLines_eq_sum]
  exact (perm.map Item.lineCount).sum_nat

namespace Eviction

/-- The size is that of the items kept. -/
def Measured (eviction : Eviction) : Prop :=
  eviction.size = totalLines eviction.kept

variable {eviction : Eviction}

theorem Measured.removeAt (measured : eviction.Measured) (position : Nat) :
    (eviction.removeAt position).Measured := by
  unfold Eviction.removeAt
  split
  · exact measured
  · next item found =>
    obtain ⟨inside, rfl⟩ := List.getElem?_eq_some_iff.mp found
    have split := totalLines_perm (List.getElem_cons_eraseIdx_perm inside)
    rw [totalLines_cons, ← measured] at split
    exact Nat.sub_eq_of_eq_add' split.symm

theorem Measured.runTo (measured : eviction.Measured) (wanted removals : Nat) :
    (eviction.runTo wanted removals).Measured :=
  runTo_induction (motive := fun first second ↦ first.Measured → second.Measured)
    (fun _ same ↦ same) (fun _ _ _ earlier later start ↦ later (earlier start))
    (fun _ position start ↦ start.removeAt position) wanted removals eviction measured

end Eviction

structure Measured (backlog : Backlog) : Prop where
  size : backlog.size = totalLines backlog.items
  lines : ∀ item ∈ backlog.items, item.lineCount = item.batch.lineCount

namespace Measured

variable {backlog : Backlog}

theorem empty (limit : Nat) : Measured (.empty limit) :=
  ⟨rfl, by simp [Backlog.empty]⟩

theorem makeRoom (measured : backlog.Measured) (incoming : Nat) :
    (backlog.makeRoom incoming).Measured := by
  have start : (Eviction.start backlog.items backlog.size).Measured := measured.size
  unfold Backlog.makeRoom
  dsimp only
  split
  · exact start
  · exact start.runTo _ _

theorem add (measured : backlog.Measured) (now : Nat) (batch : Batch) (delay : Nat) :
    (backlog.add now batch delay).1.Measured where
  size := by
    generalize backlog.add now batch delay = result, backlog.add_added now batch delay = added
    cases added with
    | taken =>
      rw [totalLines_perm (insert_items_perm _ _ _), totalLines_cons,
        ← measured.makeRoom (Item.schedule now batch delay).lineCount]
      exact Nat.add_comm _ _
    | _ => exact measured.size
  lines item held := by
    rcases mem_add held with rfl | old
    · rfl
    · exact measured.lines item old

/-- What an addition removes had its lines counted. -/
theorem lines_of_removed (measured : backlog.Measured) {now delay limit : Nat} {batch : Batch}
    {item : Item} (removed : .removed item limit ∈ (backlog.add now batch delay).2) :
    item.lineCount = item.batch.lineCount := by
  generalize backlog.add now batch delay = result,
    backlog.add_added now batch delay = added at removed
  cases added with
  | ignored => simp at removed
  | refused =>
    simp only [List.mem_singleton, Event.removed.injEq] at removed
    exact removed.1 ▸ rfl
  | taken =>
    obtain ⟨gone, _⟩ : item ∈ (backlog.makeRoom (Item.schedule now batch delay).lineCount).removed ∧
        backlog.limit = limit := by simpa using removed
    exact measured.lines item ((makeRoom_perm _ _).subset (List.mem_append_right _ gone))

theorem fire (measured : backlog.Measured) (now : Nat) : (backlog.fire now).1.Measured where
  size := by
    have split : totalLines (backlog.items.takeWhile (Item.isDue now)) +
        totalLines (backlog.items.dropWhile (Item.isDue now)) = backlog.size := by
      rw [measured.size, ← totalLines_append, List.takeWhile_append_dropWhile]
    exact Nat.sub_eq_of_eq_add' split.symm
  lines item left := measured.lines item ((List.dropWhile_sublist _).subset left)

theorem releaseAll (backlog : Backlog) : (backlog.releaseAll).1.Measured :=
  ⟨rfl, by simp [Backlog.releaseAll]⟩

theorem close (measured : backlog.Measured) : backlog.close.Measured :=
  ⟨measured.size, measured.lines⟩

end Measured

end LineDelivery.Backlog
