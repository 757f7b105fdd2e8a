import LineDelivery.Proofs.Backlog.Upkeep
import Mathlib.Data.List.Sort
import Mathlib.Data.Prod.Lex
import Mathlib.Order.Bounds.Basic

/-!
# Who makes room

The items that have to go are the first ones by expiry, and among equals the first as they stand:
as few as leave at most seven tenths of the lines and let the new item fit. The rest stays as it
stands, and the new item always goes in. The search never comes upon an empty backlog while there
are still too many lines.
-/

namespace LineDelivery

namespace Backlog

/-- An item, by when its batch expires, and its position. -/
def expiryKey (place : Item × Nat) : Nat ×ₗ Nat :=
  toLex (place.1.batch.expires, place.2)

/-- The items in the order in which they make room: by expiry, and then by position. -/
def byExpiry (items : List Item) : List Item :=
  (items.zipIdx.insertionSort fun first second ↦ expiryKey first ≤ expiryKey second).map Prod.fst

section

variable {item : Item} {items : List Item}

/-- To the items behind it an item compares by its expiry alone. -/
theorem map_orderedInsert_expiryKey (item : Item) {position : Nat} {places : List (Item × Nat)}
    (behind : ∀ place ∈ places, position < place.2) :
    (places.orderedInsert (fun first second ↦ expiryKey first ≤ expiryKey second)
        (item, position)).map Prod.fst =
      (places.map Prod.fst).orderedInsert
        (fun first second ↦ first.batch.expires ≤ second.batch.expires) item := by
  induction places with
  | nil => rfl
  | cons place places ih =>
    obtain ⟨later, rest⟩ := List.forall_mem_cons.mp behind
    have same : expiryKey (item, position) ≤ expiryKey place ↔
        item.batch.expires ≤ place.1.batch.expires := by
      simp only [expiryKey, Prod.Lex.toLex_le_toLex]
      omega
    by_cases sooner : item.batch.expires ≤ place.1.batch.expires
    · simp [sooner, same]
    · simp [sooner, same, ih rest]

/-- Sorting by expiry leaves equals as they stand. -/
theorem byExpiry_eq_insertionSort (items : List Item) :
    byExpiry items =
      items.insertionSort fun first second ↦ first.batch.expires ≤ second.batch.expires := by
  suffices all : ∀ start, ((items.zipIdx start).insertionSort fun first second ↦
      expiryKey first ≤ expiryKey second).map Prod.fst =
        items.insertionSort fun first second ↦ first.batch.expires ≤ second.batch.expires from
    all 0
  induction items with
  | nil => exact fun _ ↦ rfl
  | cons item items ih =>
    intro start
    rw [List.zipIdx_cons, List.insertionSort_cons, List.insertionSort_cons,
      map_orderedInsert_expiryKey, ih]
    intro place there
    exact List.le_snd_of_mem_zipIdx ((List.mem_insertionSort _).mp there)

theorem byExpiry_perm (items : List Item) : (byExpiry items).Perm items := by
  rw [byExpiry_eq_insertionSort]
  exact List.perm_insertionSort _ _

theorem pairwise_byExpiry (items : List Item) : (byExpiry items).Pairwise fun first second ↦
    first.batch.expires ≤ second.batch.expires := by
  rw [byExpiry_eq_insertionSort]
  exact List.pairwise_insertionSort _ _

/-- An item that expires before all in front of it and not after any behind it comes first. -/
theorem byExpiry_append_cons {front back : List Item}
    (before : ∀ other ∈ front, item.batch.expires < other.batch.expires)
    (notAfter : ∀ other ∈ back, item.batch.expires ≤ other.batch.expires) :
    byExpiry (front ++ item :: back) = item :: byExpiry (front ++ back) := by
  simp only [byExpiry_eq_insertionSort]
  induction front with
  | nil =>
    rw [List.nil_append, List.nil_append]
    exact List.insertionSort_cons_of_forall_rel _ notAfter
  | cons other front ih =>
    obtain ⟨first, rest⟩ := List.forall_mem_cons.mp before
    have later : ¬ other.batch.expires ≤ item.batch.expires := Nat.not_le.mpr first
    simp [ih rest, later]

end

namespace Eviction

variable {eviction before after : Eviction} {wanted count removals : Nat}

theorem Measured.kept_ne_nil (measured : eviction.Measured) (many : wanted < eviction.size) :
    eviction.kept ≠ [] := by
  intro none
  rw [measured, none] at many
  exact absurd many (Nat.not_lt_zero _)

/-- The item that is removed next is the first by expiry. -/
theorem exists_first (filled : eviction.kept ≠ []) :
    ∃ position, ∃ inside : position < eviction.kept.length,
      eviction.nextVictim? = some position ∧ byExpiry eviction.kept =
        eviction.kept[position] :: byExpiry (eviction.kept.eraseIdx position) := by
  obtain ⟨position, found⟩ : ∃ position, eviction.kept.minIdxOn (·.batch.expires) filled =
    position := ⟨_, rfl⟩
  obtain ⟨inside, least, first⟩ := (List.minIdxOn_eq_iff filled).mp found
  refine ⟨position, inside, (nextVictim?_eq filled).trans (congrArg some found), ?_⟩
  have split : eviction.kept = eviction.kept.take position ++
      eviction.kept[position] :: eviction.kept.drop (position + 1) := by
    rw [← List.drop_eq_getElem_cons inside, List.take_append_drop]
  rw [List.eraseIdx_eq_take_drop_succ]
  conv_lhs => rw [split]
  apply byExpiry_append_cons
  · intro other there
    obtain ⟨index, bound, rfl⟩ := List.mem_take_iff_getElem.mp there
    exact first index (by omega)
  · intro other there
    obtain ⟨index, bound, rfl⟩ := List.mem_drop_iff_getElem.mp there
    exact least _ (by omega)

/-- From the one eviction to the other the first items by expiry are removed, and no more than it
takes to leave the wanted lines. -/
structure Removes (wanted : Nat) (before after : Eviction) (count : Nat) : Prop where
  removed : after.removed = before.removed ++ (byExpiry before.kept).take count
  kept : byExpiry after.kept = (byExpiry before.kept).drop count
  least : IsLeast {n | totalLines ((byExpiry before.kept).drop n) ≤ wanted} count

theorem Removes.none (measured : eviction.Measured) (few : eviction.size ≤ wanted) :
    Removes wanted eviction eviction 0 where
  removed := by simp
  kept := by simp
  least := by
    refine ⟨?_, fun n _ ↦ Nat.zero_le n⟩
    have lines := totalLines_perm (byExpiry_perm eviction.kept)
    rw [← measured] at lines
    simpa [lines] using few

theorem Removes.cons (measured : before.Measured) (many : ¬ before.size ≤ wanted) {position : Nat}
    (inside : position < before.kept.length)
    (first : byExpiry before.kept =
      before.kept[position] :: byExpiry (before.kept.eraseIdx position))
    (rest : Removes wanted (before.removeAt position) after count) :
    Removes wanted before after (count + 1) := by
  have lines := totalLines_perm (byExpiry_perm before.kept)
  obtain ⟨removed, kept, least⟩ := rest
  rw [removeAt_eq inside] at removed kept least
  rw [← measured, first] at lines
  constructor
  · simp [removed, first]
  · simp [kept, first]
  · refine ⟨by simpa [first] using least.1, fun n reached ↦ ?_⟩
    cases n with
    | zero => simp [first, lines, many] at reached
    | succ n => exact Nat.succ_le_succ (least.2 (by simpa [first] using reached))

theorem Measured.exists_removes_runTo (measured : eviction.Measured) (wanted : Nat)
    (enough : eviction.kept.length ≤ removals) :
    ∃ count, Removes wanted eviction (eviction.runTo wanted removals) count := by
  induction removals generalizing eviction with
  | zero =>
    refine ⟨0, .none measured ?_⟩
    rw [measured, List.eq_nil_of_length_eq_zero (Nat.le_zero.mp enough)]
    exact Nat.zero_le _
  | succ removals ih =>
    unfold Eviction.runTo
    split
    · next few => exact ⟨0, .none measured few⟩
    · next many =>
      have filled := measured.kept_ne_nil (Nat.lt_of_not_le many)
      obtain ⟨position, inside, victim, first⟩ := exists_first filled
      have shorter : (eviction.removeAt position).kept.length ≤ removals := by
        rw [removeAt_eq inside, List.length_eraseIdx_of_lt inside]
        omega
      obtain ⟨count, removes⟩ := ih (measured.removeAt position) shorter
      rw [victim]
      exact ⟨count + 1, removes.cons measured many inside first⟩

end Eviction

/-- The lines that are left when so many items have gone. -/
def linesLeft (backlog : Backlog) (count : Nat) : Nat :=
  totalLines ((byExpiry backlog.items).drop count)

/-- The state of making room after so many rounds. -/
def roomAfter (backlog : Backlog) (incoming rounds : Nat) : Eviction :=
  (Eviction.start backlog.items backlog.size).runTo (backlog.wantedSize incoming) rounds

/-- No more has to go: at most seven tenths of the lines are left, and the new ones fit. -/
def HasRoom (backlog : Backlog) (incoming : Nat) (eviction : Eviction) : Prop :=
  eviction.size ≤ 7 * backlog.size / 10 ∧ eviction.size + incoming ≤ backlog.limit

/-- So many items make room for a new batch, and these stay. -/
structure MakesRoom (backlog : Backlog) (now : Nat) (batch : Batch) (delay count : Nat)
    (survivors : List Item) : Prop where
  /-- The first items by expiry are removed, in that order, and then the new one goes in. -/
  events : (backlog.add now batch delay).2 =
    ((byExpiry backlog.items).take count).map (.removed · backlog.limit) ++
      [.scheduled (.schedule now batch delay) delay]
  roomy : backlog.size + batch.lineCount ≤ backlog.limit → count = 0
  tight : backlog.limit < backlog.size + batch.lineCount →
    IsLeast {n | backlog.linesLeft n ≤ 7 * backlog.size / 10 ∧
      backlog.linesLeft n + batch.lineCount ≤ backlog.limit} count
  /-- All others stay, in the order in which they stood. -/
  survive : survivors.Perm ((byExpiry backlog.items).drop count) ∧
    survivors.Sublist backlog.items
  expireLater : ∀ gone ∈ (byExpiry backlog.items).take count, ∀ left ∈ survivors,
    gone.batch.expires ≤ left.batch.expires
  inserted : ∃ ahead behind, survivors = ahead ++ behind ∧
    (backlog.add now batch delay).1.items = ahead ++ .schedule now batch delay :: behind
  /-- As long as there are too many lines, there is an item to remove. -/
  found : ∀ rounds, ¬ backlog.HasRoom batch.lineCount (backlog.roomAfter batch.lineCount rounds) →
    (backlog.roomAfter batch.lineCount rounds).nextVictim? ≠ none
  ended : backlog.HasRoom batch.lineCount
    (backlog.roomAfter batch.lineCount backlog.items.length)

variable {backlog : Backlog} {incoming : Nat}

theorem le_wantedSize_iff (fits : incoming ≤ backlog.limit) {lines : Nat} :
    lines ≤ backlog.wantedSize incoming ↔
      lines ≤ 7 * backlog.size / 10 ∧ lines + incoming ≤ backlog.limit := by
  unfold wantedSize
  omega

theorem Measured.start (measured : backlog.Measured) :
    (Eviction.start backlog.items backlog.size).Measured :=
  measured.size

theorem makeRoom_of_roomy (roomy : backlog.size + incoming ≤ backlog.limit) :
    backlog.makeRoom incoming = .start backlog.items backlog.size := by
  simp [makeRoom, roomy]

theorem makeRoom_of_tight (tight : backlog.limit < backlog.size + incoming) :
    backlog.makeRoom incoming = backlog.roomAfter incoming backlog.items.length := by
  simp [makeRoom, roomAfter, Nat.not_le.mpr tight]

/-- Making room removes the first items by expiry, if any. -/
theorem Measured.exists_removed_makeRoom (measured : backlog.Measured)
    (fits : incoming ≤ backlog.limit) :
    ∃ count, (backlog.makeRoom incoming).removed = (byExpiry backlog.items).take count ∧
      byExpiry (backlog.makeRoom incoming).kept = (byExpiry backlog.items).drop count ∧
      (backlog.size + incoming ≤ backlog.limit → count = 0) ∧
      (backlog.limit < backlog.size + incoming →
        IsLeast {n | backlog.linesLeft n ≤ 7 * backlog.size / 10 ∧
          backlog.linesLeft n + incoming ≤ backlog.limit} count) := by
  rcases Nat.lt_or_ge backlog.limit (backlog.size + incoming) with tight | roomy
  · obtain ⟨count, removed, kept, least⟩ := measured.start.exists_removes_runTo
      (backlog.wantedSize incoming) (Nat.le_refl _)
    rw [makeRoom_of_tight tight]
    refine ⟨count, removed, kept, fun roomy ↦ absurd roomy (Nat.not_le.mpr tight), fun _ ↦ ?_⟩
    simp only [← le_wantedSize_iff fits]
    exact least
  · rw [makeRoom_of_roomy roomy]
    exact ⟨0, rfl, rfl, fun _ ↦ rfl, fun tight ↦ absurd roomy (Nat.not_le.mpr tight)⟩

theorem Measured.exists_makesRoom (measured : backlog.Measured) (opened : backlog.closed = false)
    {batch : Batch} (filled : batch.lines ≠ []) (fits : batch.lineCount ≤ backlog.limit)
    (now delay : Nat) : ∃ count survivors, MakesRoom backlog now batch delay count survivors := by
  obtain ⟨count, removed, kept, roomy, tight⟩ := measured.exists_removed_makeRoom fits
  let room := backlog.makeRoom batch.lineCount
  let item := Item.schedule now batch delay
  have added : backlog.add now batch delay = (backlog.insert room item,
      room.removed.map (.removed · backlog.limit) ++ [.scheduled item delay]) :=
    add_of_fits filled opened fits now delay
  have perm : room.kept.Perm ((byExpiry backlog.items).drop count) :=
    kept ▸ (byExpiry_perm room.kept).symm
  have stage (rounds : Nat) : (backlog.roomAfter batch.lineCount rounds).Measured :=
    measured.start.runTo _ _
  refine ⟨count, room.kept, ?_⟩
  constructor
  case events => rw [added, removed]
  case roomy => exact roomy
  case tight => exact tight
  case survive => exact ⟨perm, makeRoom_kept_sublist _ _⟩
  case expireLater =>
    intro gone first left stays
    have sorted := pairwise_byExpiry backlog.items
    rw [← List.take_append_drop count (byExpiry backlog.items)] at sorted
    exact (List.pairwise_append.mp sorted).2.2 gone first left (perm.subset stays)
  case inserted =>
    rw [added]
    exact ⟨_, _, (List.takeWhile_append_dropWhile).symm, rfl⟩
  case found =>
    intro rounds many
    rw [HasRoom, ← le_wantedSize_iff fits, Nat.not_le] at many
    simp [Eviction.nextVictim?_eq ((stage rounds).kept_ne_nil many)]
  case ended =>
    rw [HasRoom, ← le_wantedSize_iff fits]
    exact Eviction.size_runTo_le measured.start _ (Nat.le_refl _)

end Backlog

namespace Timeline

/-- Wherever an open timeline gets, a batch that can fit goes in, and just those items make room for
it that expire first. -/
theorem makesRoom_of_moves (limit : Nat) {timeline : Timeline}
    (moves : Moves (start limit) timeline) (opened : timeline.backlog.closed = false)
    {batch : Batch} (filled : batch.lines ≠ []) (fits : batch.lineCount ≤ limit) (delay : Nat) :
    ∃ count survivors,
      timeline.backlog.MakesRoom timeline.now batch delay count survivors := by
  have limited := ((Upkept.start limit).moves moves).limited
  exact limited.toMeasured.exists_makesRoom opened filled (limited.limit_eq ▸ fits) _ _

/-- Four batches with nine lines together; the last two expire first, at the same instant. -/
def packed : List Turn :=
  let batch (serial lines expires : Nat) : Batch :=
    { serial, chunks := List.replicate lines [65, 10], remaining := 1, expires }
  [.command (.add (batch 0 2 9000000) 1000000), .command (.add (batch 1 2 8000000) 2000000),
    .command (.add (batch 2 3 7000000) 3000000), .command (.add (batch 3 2 7000000) 4000000)]

/-- Seven tenths would be six lines, but five new ones leave room for four only. -/
theorem makesRoom_of_moves_packed :
    let newcomer : Batch :=
      { serial := 4, chunks := List.replicate 5 [66, 10], remaining := 1, expires := 6000000 }
    (run 9 packed).backlog.closed = false ∧ newcomer.lines ≠ [] ∧ newcomer.lineCount ≤ 9 ∧
      ((run 9 packed).backlog.add (run 9 packed).now newcomer 2500000).1.items.map
        (·.batch.serial) = [0, 1, 4] ∧
      ∃ count survivors, (run 9 packed).backlog.MakesRoom (run 9 packed).now newcomer 2500000
        count survivors := by
  intro newcomer
  have opened : (run 9 packed).backlog.closed = false := by decide +kernel
  have filled : newcomer.lines ≠ [] := by decide
  have fits : newcomer.lineCount ≤ 9 := by decide
  exact ⟨opened, filled, fits, by decide +kernel,
    makesRoom_of_moves 9 (run_moves 9 packed) opened filled fits 2500000⟩

end Timeline

end LineDelivery
