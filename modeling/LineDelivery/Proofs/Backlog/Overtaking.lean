import LineDelivery.Proofs.Backlog.Fate

/-!
# Overtaking

An instant that the clock does not have is replaced by one thirty years ahead, so a delay for which
there is no instant can end before a shorter one for which there is. Unless it does, retries of one
instant are handed back in the order in which they were added if their delays grow, and of two
batches that were formed together the one with more time does not expire first.
-/

namespace LineDelivery

/-- A longer delay leads to no earlier instant, unless it alone is replaced by thirty years and the
shorter one is longer than these. -/
theorem Time.deadline_le_deadline_iff {now shorter longer : Nat} (ordered : shorter ≤ longer) :
    deadline now shorter ≤ deadline now longer ↔
      shorter ≤ farAhead ∨ now + longer < horizon ∨ horizon ≤ now + shorter := by
  unfold deadline
  split <;> split <;> omega

namespace Timeline

section

variable {limit : Nat} {timeline : Timeline} {turn : Turn} {turns : List Turn} {batch : Batch}

/-! ## In which order batches leave -/

/-- The batches that were handed back, the earliest first, and behind them those that are held. -/
def departures (timeline : Timeline) : List Batch :=
  timeline.returned.reverse ++ timeline.held

/-- What is handed back was the head of what was held. -/
theorem departures_settleWith (timeline : Timeline) {outcome : Backlog × List Batch}
    (split : outcome.2 ++ outcome.1.items.map Backlog.Item.batch = timeline.held) :
    (timeline.settleWith outcome).departures = timeline.departures := by
  have back : (outcome.2.map timeline.handedBack).filterMap Backlog.Event.handedBack? =
      outcome.2 :=
    (timeline.filterMap_handedBack (fun _ ↦ rfl) (fun _ ↦ rfl) _).trans List.filterMap_some
  rw [settleWith_eq, departures, returned_note, back, departures, ← split]
  simp [held]

theorem departures_of_lapses {later : Timeline} (lapses : Lapses timeline later) :
    later.departures = timeline.departures := by
  induction lapses with
  | refl => rfl
  | @tail between _ _ lapse ih =>
    cases lapse with
    | pass => exact ih
    | fire => exact (departures_settleWith between (between.backlog.fire_perm between.now)).trans ih

/-- A batch that is taken in goes between others that are held, of which some may be removed. -/
theorem departures_take_add (useful : batch.lines ≠ []) (opened : timeline.backlog.closed = false)
    (fits : batch.lineCount ≤ timeline.backlog.limit) (delay : Nat) :
    let item := Backlog.Item.schedule timeline.now batch delay
    let kept := (timeline.backlog.makeRoom batch.lineCount).kept
    (timeline.take (.command (.add batch delay))).departures =
      timeline.returned.reverse ++
        (kept.takeWhile fun held ↦ held.retryTime ≤ item.retryTime).map Backlog.Item.batch ++
        batch :: (kept.dropWhile fun held ↦ held.retryTime ≤ item.retryTime).map
          Backlog.Item.batch := by
  intro item kept
  have returned : (timeline.take (.command (.add batch delay))).returned = timeline.returned :=
    (admits_take_add useful opened fits).returned
  rw [departures, returned, take, perform_add, Backlog.add_of_fits useful opened fits]
  simp [held, Backlog.insert, item, kept, Backlog.Item.schedule]

/-- No turn changes the order of batches that it does not add. -/
theorem departures_take_sublist (timeline : Timeline) (turn : Turn) :
    ((timeline.take turn).departures.filter fun batch ↦ turn.batch? ≠ some batch).Sublist
      timeline.departures := by
  match turn with
  | .command (.add batch delay) =>
    by_cases useless : batch.lines = [] ∨ timeline.backlog.closed
    · rw [take_add_of_useless useless]
      exact List.filter_sublist
    rw [not_or, Bool.not_eq_true] at useless
    rcases Nat.lt_or_ge timeline.backlog.limit batch.lineCount with large | fits
    · rw [take_add_of_large useless.1 useless.2 large]
      exact List.filter_sublist
    · have kept := (timeline.backlog.makeRoom_kept_sublist batch.lineCount).map Backlog.Item.batch
      rw [departures_take_add useless.1 useless.2 fits, List.filter_append,
        List.filter_cons_of_neg (by simp [Turn.batch?, useless.1]), ← List.filter_append,
        List.append_assoc, ← List.map_append, List.takeWhile_append_dropWhile]
      exact List.filter_sublist.trans (kept.append_left _)
  | .command .releaseAll =>
    have same : (timeline.take (.command .releaseAll)).departures = timeline.departures :=
      departures_settleWith timeline (List.append_nil _)
    rw [same]
    exact List.filter_sublist
  | .command .abandon => exact List.filter_sublist.trans ((List.nil_sublist _).append_left _)
  | .command .close | .command .stopListening => exact List.filter_sublist
  | .command (.sleep duration) =>
    rw [departures_of_lapses (timeline.sleep_lapses duration)]
    exact List.filter_sublist
  | .alarm =>
    rw [take, departures_of_lapses timeline.settle_lapses]
    exact List.filter_sublist
  | .await _ => exact List.filter_sublist

/-- The batches that some turns add, in order. -/
def added (turns : List Turn) : List Batch :=
  turns.filterMap Turn.batch?

theorem eq_of_batch?_add {other : Batch} {delay : Nat}
    (adds : Turn.batch? (.command (.add batch delay)) = some other) : batch = other := by
  simp only [Turn.batch?, Option.ite_none_left_eq_some] at adds
  exact Option.some.inj adds.2

theorem mem_added_append_cons (before between : List Turn) :
    batch ∈ added (before ++ turn :: between) ↔
      batch ∈ added (before ++ between) ∨ turn.batch? = some batch := by
  simp only [added, List.mem_filterMap, List.mem_append, List.mem_cons]
  grind

theorem not_mem_added_cons :
    batch ∉ added (turn :: turns) ↔ turn.batch? ≠ some batch ∧ batch ∉ added turns := by
  have split : batch ∈ added (turn :: turns) ↔ batch ∈ added turns ∨ turn.batch? = some batch :=
    mem_added_append_cons [] turns
  rw [split, not_or, and_comm]

theorem sublist_departures_of_take {batches : List Batch}
    (foreign : ∀ batch ∈ batches, turn.batch? ≠ some batch)
    (there : batches.Sublist (timeline.take turn).departures) :
    batches.Sublist timeline.departures := by
  have all : batches.filter (fun batch ↦ turn.batch? ≠ some batch) = batches :=
    List.filter_eq_self.mpr fun batch inside ↦ decide_eq_true (foreign batch inside)
  exact all ▸ (there.filter _).trans (timeline.departures_take_sublist turn)

/-- Batches that leave in some order were in this order before, unless one of them was added. -/
theorem sublist_departures_of_turns {batches : List Batch}
    (foreign : ∀ batch ∈ batches, batch ∉ added turns)
    (there : batches.Sublist (turns.foldl take timeline).departures) :
    batches.Sublist timeline.departures := by
  induction turns generalizing timeline with
  | nil => exact there
  | cons turn turns ih =>
    have first : ∀ batch ∈ batches, turn.batch? ≠ some batch :=
      fun batch inside ↦ (not_mem_added_cons.mp (foreign batch inside)).1
    have later : ∀ batch ∈ batches, batch ∉ added turns :=
      fun batch inside ↦ (not_mem_added_cons.mp (foreign batch inside)).2
    exact sublist_departures_of_take first (ih later there)

theorem mem_added_of_mem_departures (there : batch ∈ (run limit turns).departures) :
    batch ∈ added turns := by
  by_contra foreign
  have before : [batch].Sublist (start limit).departures :=
    sublist_departures_of_turns (by simpa using foreign) (List.singleton_sublist.mpr there)
  simp [departures, start, returned, held, Backlog.empty] at before

/-- If two batches leave in this order, the other one is behind the place of the new one. -/
theorem mem_of_pair_sublist {new other : Batch} {ahead behind : List Batch} (isNew : new ∉ ahead)
    (pair : [new, other].Sublist (ahead ++ new :: behind)) : other ∈ behind := by
  induction ahead with
  | nil => exact List.singleton_sublist.mp (List.cons_sublist_cons.mp pair)
  | cons first ahead ih =>
    obtain ⟨different, isNew⟩ := List.ne_and_not_mem_of_not_mem_cons isNew
    rcases List.sublist_cons_iff.mp pair with later | ⟨_, same, _⟩
    · exact ih isNew later
    · exact absurd (List.cons.inj same).1 different

/-- A new batch overtakes only what has to wait longer. -/
theorem exists_late_of_overtaken {other : Batch} {delay : Nat} (upkept : Upkept limit timeline)
    (new : batch ∉ timeline.departures)
    (pair : [batch, other].Sublist (timeline.take (.command (.add batch delay))).departures) :
    ∃ item ∈ timeline.backlog.items, item.batch = other ∧
      (Backlog.Item.schedule timeline.now batch delay).retryTime < item.retryTime := by
  by_cases useless : batch.lines = [] ∨ timeline.backlog.closed
  · rw [take_add_of_useless useless] at pair
    exact absurd (pair.subset List.mem_cons_self) new
  rw [not_or, Bool.not_eq_true] at useless
  rcases Nat.lt_or_ge timeline.backlog.limit batch.lineCount with large | fits
  · rw [take_add_of_large useless.1 useless.2 large] at pair
    exact absurd (pair.subset List.mem_cons_self) new
  rw [departures_take_add useless.1 useless.2 fits] at pair
  set isEarly := fun held : Backlog.Item ↦
    decide (held.retryTime ≤ (Backlog.Item.schedule timeline.now batch delay).retryTime)
  have kept := timeline.backlog.makeRoom_kept_sublist batch.lineCount
  have ahead := ((List.takeWhile_sublist isEarly).trans kept).map Backlog.Item.batch
  obtain ⟨item, behind, isOther⟩ := List.mem_map.mp
    (mem_of_pair_sublist (fun there ↦ new ((ahead.append_left _).subset there)) pair)
  have inOrder : Backlog.InOrder _ := upkept.sound.inOrder.sublist kept
  exact ⟨item, kept.subset ((List.dropWhile_sublist _).subset behind), isOther,
    inOrder.lt_of_mem_dropWhile behind⟩

/-! ## When a held batch is due -/

theorem items_suffix_of_lapses {later : Timeline} (lapses : Lapses timeline later) :
    later.backlog.items <:+ timeline.backlog.items := by
  induction lapses with
  | refl => exact List.suffix_rfl
  | tail _ lapse ih =>
    cases lapse with
    | pass => exact ih
    | fire =>
      rw [settleWith_eq]
      exact (List.dropWhile_suffix _).trans ih

/-- An item comes in with its batch only. -/
theorem mem_items_of_take {item : Backlog.Item} (foreign : turn.batch? ≠ some item.batch)
    (there : item ∈ (timeline.take turn).backlog.items) : item ∈ timeline.backlog.items := by
  match turn with
  | .command (.add batch delay) =>
    by_cases empty : batch.lines = []
    · rwa [take_add_of_useless (.inl empty)] at there
    · rw [take, perform_add] at there
      rcases Backlog.mem_add there with rfl | before
      · exact absurd (if_neg (by simpa using empty)) foreign
      · exact before
  | .command .releaseAll =>
    rw [take_releaseAll] at there
    simp [Backlog.releaseAll] at there
  | .command .abandon => simp [take, perform, Backlog.close, Backlog.empty] at there
  | .command .close | .command .stopListening => exact there
  | .command (.sleep duration) =>
    exact (items_suffix_of_lapses (timeline.sleep_lapses duration)).subset there
  | .alarm => exact (items_suffix_of_lapses timeline.settle_lapses).subset there
  | .await _ => exact there

theorem mem_items_of_turns {item : Backlog.Item} (foreign : item.batch ∉ added turns)
    (there : item ∈ (turns.foldl take timeline).backlog.items) :
    item ∈ timeline.backlog.items := by
  induction turns generalizing timeline with
  | nil => exact there
  | cons turn turns ih =>
    obtain ⟨first, later⟩ := not_mem_added_cons.mp foreign
    exact mem_items_of_take first (ih later there)

/-- A batch that was added once waits for the instant that it was added for. -/
theorem eq_schedule_of_mem_items {before between : List Turn} {delay : Nat} {item : Backlog.Item}
    (once : item.batch ∉ added (before ++ between))
    (there : item ∈
      (run limit (before ++ .command (.add item.batch delay) :: between)).backlog.items) :
    item = .schedule (run limit before).now item.batch delay := by
  simp only [added, List.filterMap_append, List.mem_append, not_or] at once
  rw [run_append_cons] at there
  have entered := mem_items_of_turns once.2 there
  rw [take, perform_add] at entered
  rcases Backlog.mem_add entered with new | old
  · exact new
  · have departs : item.batch ∈ (run limit before).departures :=
      List.mem_append_right _ (List.mem_map_of_mem old)
    exact absurd (mem_added_of_mem_departures departs) once.1

end

/-! ## Two retries of one instant -/

/-- Two retries, each added once, at the same instant and with the same expiry. -/
structure Twins (limit now shorter longer : Nat) where
  before : List Turn
  between : List Turn
  after : List Turn
  first : Batch
  second : Batch
  now_eq : (run limit before).now = now
  sameInstant : (run limit (before ++ .command (.add first shorter) :: between)).now = now
  sameExpiry : second.expires = first.expires
  distinct : first ≠ second
  once : ∀ batch ∈ [first, second], batch ∉ added (before ++ between ++ after)

variable {limit now shorter longer : Nat}

namespace Twins

def turns (twins : Twins limit now shorter longer) : List Turn :=
  twins.before ++ .command (.add twins.first shorter) ::
    (twins.between ++ .command (.add twins.second longer) :: twins.after)

/-- The timeline just before the second retry is added. -/
def entered (twins : Twins limit now shorter longer) : Timeline :=
  run limit (twins.before ++ .command (.add twins.first shorter) :: twins.between)

variable (twins : Twins limit now shorter longer)

theorem run_turns : run limit twins.turns =
    twins.after.foldl take (twins.entered.take (.command (.add twins.second longer))) := by
  have whole : twins.turns = twins.before ++ .command (.add twins.first shorter) ::
      twins.between ++ .command (.add twins.second longer) :: twins.after := by simp [turns]
  rw [whole, run_append_cons]
  rfl

theorem not_mem_added {batch : Batch} (one : batch ∈ [twins.first, twins.second]) :
    batch ∉ added (twins.before ++ twins.between) ∧ batch ∉ added twins.after := by
  have once := twins.once batch one
  simp only [added, List.filterMap_append, List.mem_append, not_or] at once ⊢
  exact once

theorem second_not_mem_departures : twins.second ∉ twins.entered.departures := by
  intro there
  rcases (mem_added_append_cons _ _).mp (mem_added_of_mem_departures there) with other | adds
  · exact (twins.not_mem_added (by simp)).1 other
  · exact twins.distinct (eq_of_batch?_add adds)

theorem not_overtaken_when_added (later : Time.deadline now shorter ≤ Time.deadline now longer) :
    ¬ [twins.second, twins.first].Sublist
      (twins.entered.take (.command (.add twins.second longer))).departures := by
  intro pair
  obtain ⟨item, there, isFirst, late⟩ := exists_late_of_overtaken (.run limit _)
    twins.second_not_mem_departures pair
  have once : item.batch ∉ added (twins.before ++ twins.between) :=
    (twins.not_mem_added (by simp [isFirst])).1
  have due : item = .schedule (run limit twins.before).now item.batch shorter :=
    eq_schedule_of_mem_items once (isFirst ▸ there)
  rw [due, isFirst, twins.now_eq, twins.sameInstant] at late
  simp only [Backlog.Item.schedule, twins.sameExpiry] at late
  omega

theorem not_overtaken (later : Time.deadline now shorter ≤ Time.deadline now longer) :
    ¬ [twins.second, twins.first].Sublist (run limit twins.turns).departures := by
  intro pair
  rw [twins.run_turns] at pair
  have foreign : ∀ batch ∈ [twins.second, twins.first], batch ∉ added twins.after :=
    fun batch one ↦ (twins.not_mem_added (by simpa [or_comm] using one)).2
  exact twins.not_overtaken_when_added later (sublist_departures_of_turns foreign pair)

end Twins

/-- Longer times do not end before shorter ones, neither those of batches nor those of retries. -/
structure InStep (now shorter longer : Nat) : Prop where
  deadline : Time.deadline now shorter ≤ Time.deadline now longer
  expiry : ∀ serial other chunks more retries others time,
    (Batch.form other more others now longer).hasExpired time →
      (Batch.form serial chunks retries now shorter).hasExpired time
  /-- The second retry is never handed back before the first, nor does it stand before it. -/
  retries : ∀ limit (twins : Twins limit now shorter longer),
    ¬ [twins.second, twins.first].Sublist (run limit twins.turns).departures

theorem inStep_iff (ordered : shorter ≤ longer) :
    InStep now shorter longer ↔
      shorter ≤ Time.farAhead ∨ now + longer < Time.horizon ∨ Time.horizon ≤ now + shorter := by
  rw [← Time.deadline_le_deadline_iff ordered]
  constructor
  · exact InStep.deadline
  · intro later
    refine ⟨later, fun serial other chunks more retries others time expired ↦ ?_, fun _ twins ↦
      twins.not_overtaken later⟩
    exact decide_eq_true (later.trans (of_decide_eq_true expired))

/-- Two retries with more than two hundred years to expire, and then thirty years of sleep. -/
def couple (shorter longer : Nat) : Twins 10 0 shorter longer where
  before := []
  between := []
  after := [.command (.sleep Time.farAhead)]
  first := { serial := 0, chunks := [[97, 10]], remaining := 1, expires := 9000000000000000000 }
  second := { serial := 1, chunks := [[98, 10]], remaining := 1, expires := 9000000000000000000 }
  now_eq := rfl
  sameInstant := by simp [run, take, perform_add, start]
  sameExpiry := rfl
  distinct := by decide
  once := by decide

/-- The longest delay there is keeps behind a second. -/
theorem inStep_second :
    let longest := 2 ^ 64 * 1000000000 - 1
    1000000000 ≤ longest ∧ InStep 0 1000000000 longest ∧
      (run 10 (couple 1000000000 longest).turns).returned.map Batch.serial = [1, 0] := by
  intro longest
  have ordered : 1000000000 ≤ longest := by decide
  exact ⟨ordered, (inStep_iff ordered).mpr (.inl (by decide)), by decide +kernel⟩

/-- There is an instant a hundred years from the start of the clock, and none at its horizon, which
is replaced by an earlier one: there the second retry overtakes the first, and the batch with more
time expires first. -/
theorem overtaken_century :
    let century := 100 * 365 * 24 * 60 * 60 * 1000000000
    century ≤ Time.horizon ∧ Time.deadline 0 Time.horizon < Time.deadline 0 century ∧
      (Batch.form 1 [[98, 10]] 1 0 Time.horizon).hasExpired Time.farAhead ∧
      ¬ (Batch.form 0 [[97, 10]] 1 0 century).hasExpired Time.farAhead ∧
      (run 10 (couple century Time.horizon).turns).returned.map Batch.serial = [1] ∧
      (run 10 (couple century Time.horizon).turns).held.map Batch.serial = [0] ∧
      ¬ InStep 0 century Time.horizon := by
  intro century
  have earlier : Time.deadline 0 Time.horizon < Time.deadline 0 century := by decide +kernel
  exact ⟨by decide +kernel, earlier, by decide +kernel, by decide +kernel, by decide +kernel,
    by decide +kernel, fun inStep ↦ absurd inStep.deadline (Nat.not_le.mpr earlier)⟩

end Timeline

end LineDelivery
