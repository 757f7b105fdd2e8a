import LineDelivery.Backlog
import Mathlib.Data.List.Perm.Basic

/-!
# What a backlog holds

Making room splits the items into those kept and those removed, and a batch that is taken in joins
the kept ones. So every item that was held is afterwards held, removed or handed back, once.
-/

namespace LineDelivery.Backlog

namespace Eviction

variable {eviction : Eviction} {position wanted removals : Nat}

theorem removeAt_perm (eviction : Eviction) (position : Nat) :
    ((eviction.removeAt position).kept ++ (eviction.removeAt position).removed).Perm
      (eviction.kept ++ eviction.removed) := by
  unfold removeAt
  split
  · exact .refl _
  · next item found =>
    obtain ⟨inside, rfl⟩ := List.getElem?_eq_some_iff.mp found
    calc
      _ = (eviction.kept.eraseIdx position ++ eviction.removed) ++ [eviction.kept[position]] :=
        (List.append_assoc _ _ _).symm
      List.Perm _ (eviction.kept[position] ::
          (eviction.kept.eraseIdx position ++ eviction.removed)) := List.perm_append_singleton _ _
      List.Perm _ _ := (List.getElem_cons_eraseIdx_perm inside).append_right eviction.removed

theorem removeAt_kept_sublist (eviction : Eviction) (position : Nat) :
    (eviction.removeAt position).kept.Sublist eviction.kept := by
  unfold removeAt
  split
  · exact .refl _
  · exact List.eraseIdx_sublist _ _

/-- The head stays the head until the removal that takes it is noted. -/
theorem head?_removeAt (kept : (eviction.removeAt position).headRemoved = false) :
    eviction.headRemoved = false ∧
      (eviction.removeAt position).kept.head? = eviction.kept.head? := by
  unfold removeAt at kept ⊢
  split at kept
  · next missing => simpa [missing] using kept
  · next found =>
    simp only [Bool.or_eq_false_iff, beq_eq_false_iff_ne] at kept
    simp only
    refine ⟨kept.1, ?_⟩
    cases items : eviction.kept with
    | nil => simp
    | cons first rest =>
      obtain ⟨before, rfl⟩ := Nat.exists_eq_succ_of_ne_zero kept.2
      rfl

/-- What holds of every removal holds of making room as a whole. -/
theorem runTo_induction {motive : Eviction → Eviction → Prop}
    (refl : ∀ eviction, motive eviction eviction)
    (trans : ∀ first second third, motive first second → motive second third → motive first third)
    (removeAt : ∀ eviction position, motive eviction (eviction.removeAt position))
    (wanted removals : Nat) (eviction : Eviction) :
    motive eviction (eviction.runTo wanted removals) := by
  induction removals generalizing eviction with
  | zero => exact refl _
  | succ removals ih =>
    unfold runTo
    split
    · exact refl _
    · split
      · exact refl _
      · exact trans _ _ _ (removeAt _ _) (ih _)

theorem runTo_perm (wanted removals : Nat) (eviction : Eviction) :
    ((eviction.runTo wanted removals).kept ++ (eviction.runTo wanted removals).removed).Perm
      (eviction.kept ++ eviction.removed) :=
  runTo_induction (motive := fun first second ↦
      (second.kept ++ second.removed).Perm (first.kept ++ first.removed))
    (fun _ ↦ .refl _) (fun _ _ _ first second ↦ second.trans first) removeAt_perm _ _ _

theorem runTo_kept_sublist (wanted removals : Nat) (eviction : Eviction) :
    (eviction.runTo wanted removals).kept.Sublist eviction.kept :=
  runTo_induction (motive := fun first second ↦ second.kept.Sublist first.kept)
    (fun _ ↦ .refl _) (fun _ _ _ first second ↦ second.trans first) removeAt_kept_sublist _ _ _

theorem head?_runTo (kept : (eviction.runTo wanted removals).headRemoved = false) :
    eviction.headRemoved = false ∧
      (eviction.runTo wanted removals).kept.head? = eviction.kept.head? := by
  refine runTo_induction (motive := fun first second ↦ second.headRemoved = false →
      first.headRemoved = false ∧ second.kept.head? = first.kept.head?)
    (fun _ unmoved ↦ ⟨unmoved, rfl⟩) ?_ (fun _ _ ↦ head?_removeAt) wanted removals eviction kept
  intro first second third earlier later unmoved
  obtain ⟨unmoved, same⟩ := later unmoved
  exact ⟨(earlier unmoved).1, same.trans (earlier unmoved).2⟩

end Eviction

variable {backlog : Backlog}

theorem makeRoom_perm (backlog : Backlog) (incoming : Nat) :
    ((backlog.makeRoom incoming).kept ++ (backlog.makeRoom incoming).removed).Perm
      backlog.items := by
  unfold makeRoom
  split
  · simp [Eviction.start]
  · simpa [Eviction.start] using Eviction.runTo_perm _ _ (Eviction.start backlog.items backlog.size)

theorem makeRoom_kept_sublist (backlog : Backlog) (incoming : Nat) :
    (backlog.makeRoom incoming).kept.Sublist backlog.items := by
  unfold makeRoom
  split
  · exact .refl _
  · exact Eviction.runTo_kept_sublist _ _ _

theorem head?_makeRoom {incoming : Nat} (kept : (backlog.makeRoom incoming).headRemoved = false) :
    (backlog.makeRoom incoming).kept.head? = backlog.items.head? := by
  unfold makeRoom at kept ⊢
  split at kept
  · next fits => simp [fits, Eviction.start]
  · next tight => simpa [tight, Eviction.start] using (Eviction.head?_runTo kept).2

theorem insert_items_perm (backlog : Backlog) (room : Eviction) (item : Item) :
    (backlog.insert room item).items.Perm (item :: room.kept) := by
  calc
    (backlog.insert room item).items.Perm _ := List.perm_middle
    List.Perm _ (item :: room.kept) := by rw [List.takeWhile_append_dropWhile]

/-- Adding ends in one of three ways. -/
inductive Added (backlog : Backlog) (item : Item) (delay : Nat) : Backlog × List Event → Prop
  | ignored (useless : item.batch.lines = [] ∨ backlog.closed) : Added backlog item delay
      (backlog, [])
  | refused (filled : item.batch.lines ≠ []) (opened : backlog.closed = false)
      (large : backlog.limit < item.lineCount) : Added backlog item delay
      (backlog, [.removed item backlog.limit])
  | taken (filled : item.batch.lines ≠ []) (opened : backlog.closed = false)
      (fits : item.lineCount ≤ backlog.limit) : Added backlog item delay
      (backlog.insert (backlog.makeRoom item.lineCount) item,
        (backlog.makeRoom item.lineCount).removed.map (.removed · backlog.limit) ++
          [.scheduled item delay])

theorem add_added (backlog : Backlog) (now : Nat) (batch : Batch) (delay : Nat) :
    Added backlog (.schedule now batch delay) delay (backlog.add now batch delay) := by
  unfold add
  simp only [Bool.or_eq_true, List.isEmpty_iff]
  split
  · next useless => exact .ignored useless
  · next useful =>
    simp only [not_or, Bool.not_eq_true] at useful
    split
    · next large => exact .refused useful.1 useful.2 large
    · next fits => exact .taken useful.1 useful.2 (Nat.le_of_not_lt fits)

theorem add_of_useless {batch : Batch} (useless : batch.lines = [] ∨ backlog.closed)
    (now delay : Nat) : backlog.add now batch delay = (backlog, []) := by
  simp [add, useless]

theorem add_of_large {batch : Batch} (useful : batch.lines ≠ []) (opened : backlog.closed = false)
    (large : backlog.limit < batch.lineCount) (now delay : Nat) :
    backlog.add now batch delay =
      (backlog, [.removed (.schedule now batch delay) backlog.limit]) := by
  simp [add, Item.schedule, useful, opened, large]

theorem add_of_fits {batch : Batch} (useful : batch.lines ≠ []) (opened : backlog.closed = false)
    (fits : batch.lineCount ≤ backlog.limit) (now delay : Nat) :
    backlog.add now batch delay =
      (backlog.insert (backlog.makeRoom batch.lineCount) (.schedule now batch delay),
        (backlog.makeRoom batch.lineCount).removed.map (.removed · backlog.limit) ++
          [.scheduled (.schedule now batch delay) delay]) := by
  simp [add, Item.schedule, useful, opened, Nat.not_lt.mpr fits]

@[simp]
theorem closed_add (backlog : Backlog) (now : Nat) (batch : Batch) (delay : Nat) :
    (backlog.add now batch delay).1.closed = backlog.closed := by
  generalize backlog.add now batch delay = result, backlog.add_added now batch delay = added
  cases added <;> rfl

/-- Nothing comes in but the item that is added. -/
theorem mem_add {now delay : Nat} {batch : Batch} {item : Item}
    (held : item ∈ (backlog.add now batch delay).1.items) :
    item = .schedule now batch delay ∨ item ∈ backlog.items := by
  generalize backlog.add now batch delay = result, backlog.add_added now batch delay = added at held
  cases added with
  | taken =>
    rcases List.mem_cons.mp ((insert_items_perm _ _ _).subset held) with rfl | kept
    · exact .inl rfl
    · exact .inr ((makeRoom_kept_sublist _ _).subset kept)
  | _ => exact .inr held

/-- An item that is taken in is held, with those that were held and not removed for it. -/
theorem insert_makeRoom_perm (backlog : Backlog) (item : Item) :
    ((backlog.insert (backlog.makeRoom item.lineCount) item).items ++
      (backlog.makeRoom item.lineCount).removed).Perm (item :: backlog.items) := by
  calc
    List.Perm _ (item :: (backlog.makeRoom item.lineCount).kept ++
        (backlog.makeRoom item.lineCount).removed) :=
      (insert_items_perm backlog _ item).append_right _
    List.Perm _ (item :: backlog.items) := (makeRoom_perm backlog item.lineCount).cons item

theorem fire_perm (backlog : Backlog) (now : Nat) :
    (backlog.fire now).2 ++ (backlog.fire now).1.items.map Item.batch =
      backlog.items.map Item.batch := by
  simp only [fire]
  rw [← List.map_append, List.takeWhile_append_dropWhile]

end LineDelivery.Backlog
