import LineDelivery.Proofs.Backlog.Closed

/-!
# What becomes of a batch

A batch with lines that is added to an open backlog is held until it is handed back or removed, and
then it is gone for good. It is removed at once if it could never fit, and later only to make room for
another; to hand it back is left to the alarm and to releases, also when nobody takes it any more or
the backlog is closed.
-/

namespace LineDelivery

namespace Backlog.Event

/-- The batch that is handed back, whether or not somebody takes it. -/
def handedBack? : Event → Option Batch
  | released batch | discarded batch => some batch
  | removed _ _ | scheduled _ _ => none

/-- The batch that is removed. -/
def removed? : Event → Option Batch
  | removed item _ => some item.batch
  | released _ | discarded _ | scheduled _ _ => none

end Backlog.Event

namespace Timeline

/-- The batch that a turn adds, if it has lines. -/
def Turn.batch? : Turn → Option Batch
  | command (.add batch _) => if batch.lines.isEmpty then none else some batch
  | _ => none

/-- The batches with lines that are added before the backlog is closed. -/
def submitted (turns : List Turn) : List Batch :=
  (turns.takeWhile (· ≠ .command .close)).filterMap Turn.batch?

def held (timeline : Timeline) : List Batch :=
  timeline.backlog.items.map Backlog.Item.batch

/-- The batches that were handed back. -/
def returned (timeline : Timeline) : List Batch :=
  timeline.trace.filterMap (·.2.handedBack?)

/-- The batches that were removed. -/
def dropped (timeline : Timeline) : List Batch :=
  timeline.trace.filterMap (·.2.removed?)

/-- The batches that are held or were once. -/
def known (timeline : Timeline) : List Batch :=
  timeline.held ++ timeline.returned ++ timeline.dropped

section

variable {timeline : Timeline} {backlog : Backlog} {events : List Backlog.Event}

theorem returned_note :
    returned { timeline with backlog, trace := timeline.stamped events ++ timeline.trace } =
      (events.filterMap Backlog.Event.handedBack?).reverse ++ timeline.returned := by
  simp [returned, stamped, List.filterMap_map, List.filterMap_reverse]

theorem dropped_note :
    dropped { timeline with backlog, trace := timeline.stamped events ++ timeline.trace } =
      (events.filterMap Backlog.Event.removed?).reverse ++ timeline.dropped := by
  simp [dropped, stamped, List.filterMap_map, List.filterMap_reverse]

end

/-! ## Turns that add nothing -/

/-- At most, batches that were held have been handed back. -/
structure Spares (before after : Timeline) : Prop where
  passed : (after.held ++ after.returned).Perm (before.held ++ before.returned)
  dropped : after.dropped = before.dropped
  trace : before.trace <:+ after.trace
  closed : after.backlog.closed = before.backlog.closed

namespace Spares

variable {first second third : Timeline}

theorem refl (timeline : Timeline) : Spares timeline timeline :=
  ⟨.refl _, rfl, List.suffix_rfl, rfl⟩

theorem trans (earlier : Spares first second) (later : Spares second third) : Spares first third :=
  ⟨later.passed.trans earlier.passed, later.dropped.trans earlier.dropped,
    earlier.trace.trans later.trace, later.closed.trans earlier.closed⟩

/-- All that an operation gives out was held. -/
theorem settleWith (timeline : Timeline) {outcome : Backlog × List Batch}
    (split : outcome.2 ++ outcome.1.items.map Backlog.Item.batch = timeline.held)
    (closed : outcome.1.closed = timeline.backlog.closed) :
    Spares timeline (timeline.settleWith outcome) := by
  have back : (outcome.2.map timeline.handedBack).filterMap Backlog.Event.handedBack? =
      outcome.2 :=
    (timeline.filterMap_handedBack (fun _ ↦ rfl) (fun _ ↦ rfl) _).trans List.filterMap_some
  have none : (outcome.2.map timeline.handedBack).filterMap Backlog.Event.removed? = [] :=
    (timeline.filterMap_handedBack (fun _ ↦ rfl) (fun _ ↦ rfl) _).trans (List.filterMap_none _)
  rw [settleWith_eq]
  refine ⟨?_, ?_, List.suffix_append _ _, closed⟩
  · rw [returned_note, back, ← split]
    calc
      List.Perm _ (outcome.1.items.map Backlog.Item.batch ++ (outcome.2 ++ timeline.returned)) :=
        ((List.reverse_perm _).append_right _).append_left _
      List.Perm _ (outcome.2 ++ outcome.1.items.map Backlog.Item.batch ++ timeline.returned) := by
        rw [← List.append_assoc]
        exact List.perm_append_comm.append_right _
  · rw [dropped_note, none]
    rfl

theorem lapse (lapse : Lapse first second) : Spares first second := by
  cases lapse with
  | pass => exact ⟨.refl _, rfl, List.suffix_rfl, rfl⟩
  | fire => exact .settleWith first (first.backlog.fire_perm first.now) rfl

theorem lapses (lapses : Lapses first second) : Spares first second := by
  induction lapses with
  | refl => exact .refl first
  | tail _ lapse ih => exact ih.trans (.lapse lapse)

end Spares

/-! ## Additions -/

/-- The batch is held now, if need be in place of others. -/
structure Admits (batch : Batch) (before after : Timeline) : Prop where
  inside : batch ∈ after.held
  returned : after.returned = before.returned
  room : ∃ evicted : List Batch, (after.held ++ evicted).Perm (batch :: before.held) ∧
    after.dropped = evicted ++ before.dropped

section

variable {delay : Nat} {timeline : Timeline} {batch : Batch}

theorem Admits.known {before after : Timeline} (admits : Admits batch before after) :
    after.known.Perm (batch :: before.known) := by
  obtain ⟨evicted, split, dropped⟩ := admits.room
  unfold Timeline.known
  rw [admits.returned, dropped, List.append_assoc]
  calc
    List.Perm _ (after.held ++ (evicted ++ (before.returned ++ before.dropped))) :=
      (List.perm_append_comm_assoc _ _ _).append_left _
    List.Perm _ (batch :: before.held ++ (before.returned ++ before.dropped)) := by
      rw [← List.append_assoc]
      exact split.append_right _
    List.Perm _ (batch :: (before.held ++ before.returned ++ before.dropped)) := by
      rw [List.append_assoc]
      rfl

theorem take_add_of_useless (useless : batch.lines = [] ∨ timeline.backlog.closed) :
    timeline.take (.command (.add batch delay)) = timeline := by
  rw [take, perform_add, Backlog.add_of_useless useless]
  rfl

theorem take_add_of_large (useful : batch.lines ≠ []) (opened : timeline.backlog.closed = false)
    (large : timeline.backlog.limit < batch.lineCount) :
    timeline.take (.command (.add batch delay)) =
      timeline.record (.removed (.schedule timeline.now batch delay) timeline.backlog.limit) := by
  rw [take, perform_add, Backlog.add_of_large useful opened large]
  rfl

theorem admits_take_add (useful : batch.lines ≠ []) (opened : timeline.backlog.closed = false)
    (fits : batch.lineCount ≤ timeline.backlog.limit) :
    Admits batch timeline (timeline.take (.command (.add batch delay))) := by
  rw [take, perform_add, Backlog.add_of_fits useful opened fits]
  set room := timeline.backlog.makeRoom batch.lineCount
  have split := (timeline.backlog.insert_makeRoom_perm
    (.schedule timeline.now batch delay)).map Backlog.Item.batch
  rw [List.map_append, List.map_cons] at split
  refine ⟨?_, ?_, (room.removed.map Backlog.Item.batch).reverse, ?_, ?_⟩
  · have inside := (Backlog.insert_items_perm timeline.backlog room
      (.schedule timeline.now batch delay)).mem_iff.mpr List.mem_cons_self
    exact List.mem_map_of_mem (f := Backlog.Item.batch) inside
  · rw [returned_note]
    simp [Backlog.Event.handedBack?, Function.comp_def]
  · exact ((List.reverse_perm _).append_left _).trans split
  · rw [dropped_note]
    simp [Backlog.Event.removed?, List.filterMap_map, Function.comp_def]

/-- A batch that is added is known from then on, and no other comes or goes. -/
theorem known_take_add (delay : Nat) (useful : batch.lines ≠ [])
    (opened : timeline.backlog.closed = false) :
    (timeline.take (.command (.add batch delay))).known.Perm (batch :: timeline.known) := by
  rcases Nat.lt_or_ge timeline.backlog.limit batch.lineCount with large | fits
  · rw [take_add_of_large useful opened large]
    exact List.perm_middle
  · exact (admits_take_add useful opened fits).known

end

/-! ## Any turns -/

section

variable {limit : Nat} {timeline next : Timeline} {turns : List Turn} {turn : Turn}

theorem Spares.take (timeline : Timeline) (adds : turn.batch? = none)
    (stays : turn ≠ .command .abandon) (opens : turn ≠ .command .close) :
    Spares timeline (timeline.take turn) := by
  match turn with
  | .command (.add batch delay) =>
    have empty : batch.lines = [] := by simpa [Turn.batch?] using adds
    rw [take_add_of_useless (.inl empty)]
    exact .refl timeline
  | .command .releaseAll =>
    refine .settleWith timeline ?_ rfl
    simp [Backlog.releaseAll, held]
  | .command .close => exact absurd rfl opens
  | .command (.sleep duration) => exact .lapses (timeline.sleep_lapses duration)
  | .command .stopListening => exact ⟨.refl _, rfl, List.suffix_rfl, rfl⟩
  | .command .abandon => exact absurd rfl stays
  | .alarm => exact .lapses timeline.settle_lapses
  | .await duration => exact .lapses (timeline.await_lapses duration)

theorem trace_suffix_take (timeline : Timeline) (turn : Turn) :
    timeline.trace <:+ (timeline.take turn).trace := by
  match turn with
  | .command (.add batch delay) =>
    rw [take, perform_add]
    exact List.suffix_append _ _
  | .command .close | .command .abandon => exact List.suffix_rfl
  | .command .releaseAll | .command (.sleep _) | .command .stopListening | .alarm | .await _ =>
    exact (Spares.take timeline rfl (by simp) (by simp)).trace

theorem trace_suffix_foldl_take (timeline : Timeline) (turns : List Turn) :
    timeline.trace <:+ (turns.foldl take timeline).trace := by
  induction turns generalizing timeline with
  | nil => exact List.suffix_rfl
  | cons turn turns ih => exact (timeline.trace_suffix_take turn).trans (ih _)

theorem submitted_append_singleton (turns : List Turn) (turn : Turn) :
    submitted (turns ++ [turn]) =
      submitted turns ++ if .command .close ∈ turns then [] else turn.batch?.toList := by
  unfold submitted
  split
  next closed =>
    have cut : (turns.takeWhile (· ≠ .command .close)).length ≠ turns.length := fun whole ↦ by
      have all := (List.takeWhile_prefix _).eq_of_length whole
      simpa using List.takeWhile_eq_self_iff.mp all _ closed
    rw [List.takeWhile_append, if_neg cut, List.append_nil]
  next opened =>
    have all : ∀ turn ∈ turns, decide (turn ≠ .command .close) = true := fun turn inside ↦
      decide_eq_true fun closes ↦ opened (closes ▸ inside)
    rw [List.takeWhile_append_of_pos all, List.takeWhile_eq_self_iff.mpr all]
    by_cases closes : turn = .command .close
    · simp [closes, Turn.batch?]
    · cases adds : turn.batch? <;> simp [closes, adds]

/-- Whatever was submitted is known, and the backlog is closed once it was told so. -/
structure Accounted (turns : List Turn) (timeline : Timeline) : Prop where
  known : timeline.known.Perm (submitted turns)
  closed : timeline.backlog.closed ↔ .command .close ∈ turns

namespace Accounted

theorem start (limit : Nat) : Accounted [] (.start limit) :=
  ⟨.nil, by simp [Timeline.start, Backlog.empty]⟩

/-- Nothing is submitted, but perhaps handed back. -/
theorem spare (accounted : Accounted turns timeline) (adds : turn.batch? = none)
    (opens : turn ≠ .command .close) (spares : Spares timeline next) :
    Accounted (turns ++ [turn]) next where
  known := by
    have same : next.known.Perm timeline.known := by
      unfold Timeline.known
      rw [spares.dropped]
      exact spares.passed.append_right _
    simpa [submitted_append_singleton, adds] using same.trans accounted.known
  closed := by
    rw [spares.closed, accounted.closed]
    simp [opens.symm]

theorem add (accounted : Accounted turns timeline) (batch : Batch) (delay : Nat) :
    Accounted (turns ++ [.command (.add batch delay)])
      (timeline.take (.command (.add batch delay))) where
  known := by
    rw [submitted_append_singleton]
    by_cases useless : batch.lines = [] ∨ .command .close ∈ turns
    · rw [take_add_of_useless (useless.imp_right accounted.closed.mpr)]
      rcases useless with empty | closed
      · simpa [Turn.batch?, empty] using accounted.known
      · simpa [closed] using accounted.known
    · rw [not_or] at useless
      have opened : timeline.backlog.closed = false := by
        simpa [useless.2] using accounted.closed
      have added := (known_take_add delay useless.1 opened).trans (accounted.known.cons batch)
      simpa [Turn.batch?, useless] using added.trans (List.perm_append_singleton _ _).symm
  closed := by
    have same : (timeline.take (.command (.add batch delay))).backlog.closed =
        timeline.backlog.closed := by
      rw [take, perform_add]
      exact Backlog.closed_add _ _ _ _
    rw [same, accounted.closed]
    simp

theorem take (accounted : Accounted turns timeline) (stays : turn ≠ .command .abandon) :
    Accounted (turns ++ [turn]) (timeline.take turn) := by
  match turn with
  | .command (.add batch delay) => exact accounted.add batch delay
  | .command .close =>
    have same : submitted (turns ++ [.command .close]) = submitted turns := by
      simp [submitted_append_singleton, Turn.batch?]
    exact ⟨same ▸ accounted.known, by simp [Timeline.take, perform, Backlog.close]⟩
  | .command .releaseAll | .command (.sleep _) | .command .stopListening | .alarm | .await _ =>
    exact accounted.spare rfl (by simp) (.take timeline rfl stays (by simp))
  | .command .abandon => exact absurd rfl stays

theorem run (limit : Nat) (stays : .command .abandon ∉ turns) :
    Accounted turns (Timeline.run limit turns) := by
  induction turns using List.reverseRecOn with
  | nil => exact start limit
  | append_singleton turns turn ih =>
    simp only [List.mem_append, List.mem_singleton, not_or] at stays
    rw [Timeline.run, List.foldl_append]
    exact (ih stays.1).take (Ne.symm stays.2)

end Accounted

theorem run_append_singleton (limit : Nat) (turns : List Turn) (turn : Turn) :
    run limit (turns ++ [turn]) = (run limit turns).take turn :=
  run_append_cons limit turns turn []

/-- Where the batches are after some turns, and what one more turn can do about it. -/
structure Conserved (limit : Nat) (turns : List Turn) : Prop where
  /-- Every batch that was submitted is held, was handed back or was removed, and only once. -/
  accounted : ((run limit turns).held ++ (run limit turns).returned ++
    (run limit turns).dropped).Perm (submitted turns)
  final (more : List Turn) : (run limit turns).trace <:+ (run limit (turns ++ more)).trace
  ignored (batch : Batch) (delay : Nat) (useless : batch.lines = [] ∨ .command .close ∈ turns) :
    run limit (turns ++ [.command (.add batch delay)]) = run limit turns
  refused (batch : Batch) (delay : Nat) (useful : batch.lines ≠ [])
    (opened : .command .close ∉ turns) (large : limit < batch.lineCount) :
    run limit (turns ++ [.command (.add batch delay)]) =
      (run limit turns).record (.removed (.schedule (run limit turns).now batch delay) limit)
  admitted (batch : Batch) (delay : Nat) (useful : batch.lines ≠ [])
    (opened : .command .close ∉ turns) (fits : batch.lineCount ≤ limit) :
    Admits batch (run limit turns) (run limit (turns ++ [.command (.add batch delay)]))
  /-- Only additions remove anything. -/
  spared (turn : Turn) (adds : turn.batch? = none) :
    (run limit (turns ++ [turn])).dropped = (run limit turns).dropped
  /-- Only alarms and releases hand anything back. -/
  quiet (turn : Turn) (silent : turn ∈ [.command .close, .command .stopListening] ∨
      ∃ duration, turn = .await duration) :
    (run limit (turns ++ [turn])).trace = (run limit turns).trace

/-- Each batch with lines that is added before the close is in one place at a time: it is held until
it is handed back or removed, as it was added, and that is the last of it. -/
theorem conserved_run (limit : Nat) (staying : .command .abandon ∉ turns) :
    Conserved limit turns := by
  have accounted := Accounted.run limit staying
  have limited : (run limit turns).backlog.limit = limit :=
    (Upkept.run limit turns).limited.limit_eq
  have unclosed (opened : .command .close ∉ turns) : (run limit turns).backlog.closed = false := by
    simpa [opened] using accounted.closed
  refine
    { accounted := accounted.known
      final := fun more ↦ ?_
      ignored := fun batch delay useless ↦ ?_
      refused := fun batch delay useful opened large ↦ ?_
      admitted := fun batch delay useful opened fits ↦ ?_
      spared := fun turn adds ↦ ?_
      quiet := fun turn silent ↦ ?_ }
  · rw [run, run, List.foldl_append]
    exact trace_suffix_foldl_take _ more
  · rw [run_append_singleton]
    exact take_add_of_useless (useless.imp_right accounted.closed.mpr)
  · rw [run_append_singleton, take_add_of_large useful (unclosed opened) (limited.symm ▸ large),
      limited]
  · rw [run_append_singleton]
    exact admits_take_add useful (unclosed opened) (limited.symm ▸ fits)
  · rw [run_append_singleton]
    by_cases idle : turn = .command .abandon ∨ turn = .command .close
    · rcases idle with rfl | rfl <;> rfl
    · rw [not_or] at idle
      exact (Spares.take _ adds idle.1 idle.2).dropped
  · rw [run_append_singleton]
    rcases silent with listed | ⟨duration, rfl⟩
    · obtain rfl | rfl : turn = .command .close ∨ turn = .command .stopListening := by
        simpa using listed
      all_goals rfl
    · rfl

/-- A batch with so many lines, to be tried again after a delay in seconds. -/
def numbered (serial lines delay expires : Nat) : Turn :=
  let batch := { serial, chunks := List.replicate lines [97, 10], remaining := 1, expires }
  .command (.add batch (delay * 1000000000))

/-- With room for two lines, the first batch is refused, the second makes room for the fourth, the
third is handed back in time and the fourth by a release after the close; the last two do not count.
-/
def journeys : List Turn :=
  [numbered 1 3 1 90000000000, numbered 2 1 1 60000000000, numbered 3 1 2 90000000000,
    numbered 4 1 7 90000000000, .command (.sleep 2000000000), .command .stopListening,
    numbered 5 0 1 90000000000, .command .close, numbered 6 1 1 90000000000, .command .releaseAll]

theorem conserved_run_journeys :
    .command .abandon ∉ journeys ∧ (submitted journeys).map Batch.serial = [1, 2, 3, 4] ∧
      (run 2 journeys).returned.map Batch.serial = [4, 3] ∧
      (run 2 journeys).dropped.map Batch.serial = [2, 1] ∧ Conserved 2 journeys := by
  have staying : .command .abandon ∉ journeys := by decide
  exact ⟨staying, by decide +kernel, by decide +kernel, by decide +kernel, conserved_run 2 staying⟩

end

end Timeline

end LineDelivery
