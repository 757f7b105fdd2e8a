import LineDelivery.Proofs.Pipeline.Order
import LineDelivery.Proofs.Pipeline.Work

/-!
# No line outstays the flush interval

A full batch does not start the flush timer anew, so the timer is due at most an interval after the
oldest chunk in the buffer was taken; it starts anew only when the buffer is empty. The loop may be
late for its timer while it waits to hand something over or has lines to take, but not while it waits
for something new.
-/

namespace LineDelivery.Pipeline

namespace State

variable {setup : Setup} {s t : State}

/-- The chunks that the buffering loop took and when, the newest first. -/
def gatherings (s : State) : List (Nat × Bytes) :=
  s.history.filterMap fun noted ↦ noted.2.gathered?.map (noted.1, ·)

/-- The newest of these, as many as the buffer holds. -/
def recent (s : State) : List (Nat × Bytes) :=
  s.gatherings.take s.buffering.buffer.newestFirst.length

/-- What the flush timer has to do with the chunks that are held. -/
structure Ticking (setup : Setup) (s : State) : Prop where
  timely : ∀ taken ∈ s.recent, s.buffering.flushAt ≤ taken.1 + setup.flushInterval
  timer : s.buffering.flushAt ≤ s.now + setup.flushInterval
  emptied : s.buffering.restart → s.buffering.buffer.isEmpty

theorem recent_of_isEmpty (empty : s.buffering.buffer.isEmpty) : s.recent = [] := by
  have none : s.buffering.buffer.newestFirst = [] := List.isEmpty_iff.mp empty
  simp [recent, none]

theorem gatherings_of_silent (block : List Event)
    (history : t.history = s.stamped block ++ s.history)
    (silent : ∀ event ∈ block, event.gathered? = none) : t.gatherings = s.gatherings := by
  have none :
      (s.stamped block).filterMap (fun noted ↦ noted.2.gathered?.map (noted.1, ·)) = [] := by
    simp only [stamped, List.filterMap_eq_nil_iff, List.forall_mem_map, Option.map_eq_none_iff]
    exact silent
  simp [gatherings, history, none]

theorem gatherings_of_writes {task : Task} (other : task ≠ .buffering) (writes : Writes task s t) :
    t.gatherings = s.gatherings := by
  obtain ⟨block, history, own⟩ := writes
  refine gatherings_of_silent block history fun event there ↦ ?_
  have writer := own event there
  cases event <;> simp_all [Event.writers, Event.gathered?]

/-- The chunks of the buffer are those that were taken last. -/
theorem Lined.newestFirst (lined : s.Lined) :
    s.recent.map (fun taken ↦ Line.terminate taken.2) = s.buffering.buffer.newestFirst := by
  have taken : (listed Event.gathered? s.events).reverse = s.gatherings.map Prod.snd := by
    simp [listed, gatherings, events, List.filterMap_map, List.map_filterMap, Function.comp_def]
  have ahead : s.buffering.buffer.newestFirst <+:
      s.gatherings.map fun taken ↦ Line.terminate taken.2 := by
    refine ⟨((listed Event.cut? s.events).flatMap LineBuffer.Cut.chunks).reverse, ?_⟩
    have all := congrArg List.reverse lined.buffered
    rwa [List.reverse_append, LineBuffer.chunks, List.reverse_reverse, ← List.map_reverse, taken,
      List.map_map] at all
  rw [recent, List.map_take, ← List.prefix_iff_eq_take.mp ahead]

/-- All that the buffer holds after it took a chunk, it held before, but for that chunk. -/
theorem recent_gather (s : State) {chunk : Bytes} (rest : List Bytes) (filled : chunk ≠ []) :
    (s.gather chunk rest).recent ⊆ (s.now, chunk) :: s.recent := by
  have few := s.buffering.buffer.length_add_le filled
  have first : (s.record (.gathered chunk)).gatherings = (s.now, chunk) :: s.gatherings := rfl
  have all : (s.gather chunk rest).gatherings = (s.record (.gathered chunk)).gatherings := by
    rw [gather_eq]
    exact gatherings_of_silent ((s.buffering.buffer.add chunk).1.reverse.map .cut)
      (by simp [record, stamped]) (by simp [Event.gathered?])
  calc
    (s.gather chunk rest).recent = ((s.now, chunk) :: s.gatherings).take
        (s.buffering.buffer.add chunk).2.newestFirst.length := by
      rw [recent, all, first, gather_eq]
    _ ⊆ ((s.now, chunk) :: s.gatherings).take (s.buffering.buffer.newestFirst.length + 1) :=
      List.take_subset_take_left _ (by omega)
    _ = (s.now, chunk) :: s.recent := rfl

namespace Ticking

/-- Nothing happens to the buffer or to the timer. -/
theorem idle (ticking : s.Ticking setup) (gatherings : t.gatherings = s.gatherings)
    (buffer : t.buffering.buffer = s.buffering.buffer)
    (flushAt : t.buffering.flushAt = s.buffering.flushAt)
    (restart : t.buffering.restart = s.buffering.restart) (later : s.now ≤ t.now) :
    t.Ticking setup where
  timely := by
    rw [recent, gatherings, buffer, flushAt]
    exact ticking.timely
  timer := by
    rw [flushAt]
    exact ticking.timer.trans (Nat.add_le_add_right later _)
  emptied := by
    rw [restart, buffer]
    exact ticking.emptied

/-- The buffer is emptied. -/
theorem empty (timer : t.buffering.flushAt ≤ t.now + setup.flushInterval)
    (empty : t.buffering.buffer.isEmpty) : t.Ticking setup where
  timely := by simp [recent_of_isEmpty empty]
  timer
  emptied _ := empty

/-- The timer is never set for later than an interval from now, so it is early enough for a chunk
that is taken now. -/
theorem gather (ticking : s.Ticking setup) {chunk : Bytes} {rest : List Bytes} (filled : chunk ≠ [])
    (started : s.buffering.restart = false) : (s.gather chunk rest).Ticking setup := by
  have recent := s.recent_gather rest filled
  rw [gather_eq] at recent ⊢
  constructor
  case timely =>
    intro taken held
    rcases List.mem_cons.mp (recent held) with rfl | older
    · exact ticking.timer
    · exact ticking.timely taken older
  case timer => exact ticking.timer
  case emptied => simp [started]

theorem buffering? (ticking : s.Ticking setup) (filled : s.Filled)
    (taken : s.buffering? setup = some t) : t.Ticking setup := by
  cases action_of_buffering? taken with
  | stop => exact .empty ticking.timer rfl
  | enqueue => exact { ticking with }
  | @beginHandOver next rest =>
    cases next with
    | barrier => exact { ticking with }
    | cut cut => exact { ticking with }
  | restartTimer free restart => exact .empty (Nat.le_refl _) (ticking.emptied restart)
  | gather free started queue => exact ticking.gather (filled.lines _ (by simp [queue])) started
  | flushBuffer =>
    rw [flushBuffer_eq]
    exact .empty ticking.timer s.buffering.buffer.isEmpty_flush
  | flushOnRequest =>
    rw [flushOnRequest, flushBuffer_eq]
    exact .empty ticking.timer s.buffering.buffer.isEmpty_flush

theorem step? (ticking : s.Ticking setup) (filled : s.Filled) {task : Task}
    (taken : s.step? setup task = some t) : t.Ticking setup := by
  by_cases own : task = .buffering
  · subst own
    exact ticking.buffering? filled taken
  · have buffering : t.buffering = s.buffering := by
      cases task with
      | buffering => exact absurd rfl own
      | alarm => exact congrArg Front.buffering (front_of_alarm? taken)
      | sending => exact congrArg Front.buffering (front_of_sending? taken)
      | client => exact (loops_of_client? taken).1
    exact ticking.idle (gatherings_of_writes own (writes_of_step? taken))
      (congrArg Buffering.buffer buffering) (congrArg Buffering.flushAt buffering)
      (congrArg Buffering.restart buffering) (now_of_step? taken).ge

end Ticking

theorem ticking_start (setup : Setup) : (start setup).Ticking setup :=
  .empty (Nat.le_add_left _ _) rfl

end State

namespace Reachable

variable {setup : Setup} {s : State}

theorem ticking (reachable : Reachable setup s) : s.Ticking setup := by
  induction reachable with
  | start started => exact (start?_eq_ok started).2 ▸ State.ticking_start setup
  | move before move ih =>
    cases move with
    | step task taken => exact ih.step? before.standing.toFilled taken
    | pass now later => exact ih.idle rfl rfl rfl rfl later
    | ask requests idle => exact ih.idle rfl rfl rfl rfl (Nat.le_refl _)

/-- While the buffering loop waits for something new, the chunks of its buffer are those that it
took last, and it took each of them less than a flush interval ago. -/
theorem recent_within_flushInterval (reachable : Reachable setup s) (quiescent : s.Quiescent setup)
    (running : s.buffering.running) (free : s.buffering.handing? = none) :
    s.recent.map (fun taken ↦ Line.terminate taken.2) = s.buffering.buffer.newestFirst ∧
      ∀ taken ∈ s.recent, s.now < taken.1 + setup.flushInterval := by
  obtain ⟨_, _, early, _⟩ :=
    State.waits_of_buffering?_eq_none running free (quiescent .buffering)
  exact ⟨(reachable.lined running).newestFirst, fun taken held ↦
    early.trans_le (reachable.ticking.timely taken held)⟩

end Reachable

/-- Two lines make a batch. -/
def Setup.paired : Setup :=
  { Setup.hesitant with options := { batchSize := 2 } }

/-- The second line was written after three tenths of a second and filled up a batch; the third one
followed at once. -/
def State.halfFull : State :=
  let requests := [.line [65], .sleep 300000000, .line [66], .line [67]]
  let begun := { start .paired with requests }.settle .paired
  { begun with now := 300000000 }.settle .paired

/-- The third line is held until the timer goes off at the end of the first second. -/
theorem recent_within_flushInterval_halfFull :
    let s := { State.halfFull with now := 900000000 }.settle .paired
    s.buffering.buffer.newestFirst = [[67, 10]] ∧ s.recent = [(300000000, [67])] ∧
      ∀ taken ∈ s.recent, s.now < taken.1 + Setup.paired.flushInterval := by
  intro s
  have halfFull : Reachable .paired State.halfFull :=
    ((Reachable.start rfl).runs (State.settle_ask_runs _ rfl)).runs
      (State.settle_pass_runs 300000000 (by decide +kernel))
  have passed : Reachable .paired { State.halfFull with now := 900000000 } :=
    halfFull.move (.pass _ (by decide +kernel))
  have reachable : Reachable .paired s := passed.runs State.settle_runs
  have fresh := reachable.recent_within_flushInterval passed.quiescent_settle
    (by decide +kernel) (by decide +kernel)
  exact ⟨by decide +kernel, by decide +kernel, fresh.2⟩

end LineDelivery.Pipeline
