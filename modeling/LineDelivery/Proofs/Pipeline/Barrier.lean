import LineDelivery.Proofs.Pipeline.Handling
import LineDelivery.Proofs.Pipeline.Whole

/-!
# The barrier of a flush

While a client waits for its barrier, it brings nothing new. The buffering loop takes all lines before
it minds the flush, so nothing comes behind the barrier; and the sending loop takes the barrier up
only when no retry is left. When nobody holds the barrier any more, there was a moment at which
nothing at all was on its way.
-/

namespace LineDelivery.Pipeline

@[simp]
theorem Outgoing.cut_beq_barrier (cut : LineBuffer.Cut) : (Outgoing.cut cut == .barrier) = false :=
  rfl

namespace State

variable {setup : Setup} {s t : State}

/-- Of everything on its way to the sending loop, first what goes first, whether it is a barrier. -/
def road (s : State) : List Bool :=
  (s.batchQueue ++ s.buffering.handing?.toList).map (· == .barrier) ++
    s.buffering.outbox.map (· == .barrier)

/-- Nothing comes behind the barrier. -/
structure BarrierLast (s : State) : Prop where
  lineQueue : s.lineQueue = []
  buffer : s.buffering.buffer.isEmpty
  road : ∀ last, [last] <:+ s.road → last = true

/-- When the buffering loop has minded the flush that a client waits for, its barrier comes last. -/
def BarrierSent (s : State) : Prop :=
  s.wait? = some .barrier → s.flushAsked = false → s.BarrierLast

theorem barrierHeld_iff : s.barrierHeld ↔ s.flushAsked ∨ true ∈ s.road := by
  simp only [barrierHeld, road, Bool.or_eq_true, List.contains_iff_mem, beq_iff_eq, List.mem_append,
    List.mem_map, Option.mem_toList, exists_eq_right]
  tauto

theorem road_eq_nil : s.road = [] ↔
    s.batchQueue = [] ∧ s.buffering.handing? = none ∧ s.buffering.outbox = [] := by
  simp [road]

/-- Behind a barrier that nobody holds there is nothing on the road at all. -/
theorem BarrierLast.road_eq_nil (last : s.BarrierLast) (passed : s.barrierHeld = false) :
    s.road = [] := by
  by_contra some
  have ends : [s.road.getLast some] <:+ s.road :=
    ⟨s.road.dropLast, List.dropLast_concat_getLast some⟩
  have there : true ∈ s.road := last.road _ ends ▸ List.getLast_mem some
  simp [barrierHeld_iff.mpr (.inr there)] at passed

theorem BarrierLast.clear (last : s.BarrierLast) (passed : s.barrierHeld = false)
    (retries : s.retryQueue = []) (idle : s.sending = .idle) : s.ledger.Clear := by
  obtain ⟨parcels, free, outbox⟩ := State.road_eq_nil.mp (last.road_eq_nil passed)
  constructor
  case upstream =>
    simp [ledger, outbox, last.lineQueue, LineBuffer.chunks_eq_nil_iff.mpr last.buffer]
  case conveyor => simp [ledger, parcels, free]
  case retries => exact retries
  case idle => exact idle

/-! ## The buffering loop -/

/-- What the buffering loop does to the road. -/
inductive Buffered (s t : State) : Prop
  /-- Cuts go on it, but none when neither a line nor anything in the buffer was left. -/
  | cut (cuts : List LineBuffer.Cut) (flushAsked : t.flushAsked = s.flushAsked)
      (road : t.road = s.road ++ cuts.map fun _ ↦ false)
      (lineQueue : s.lineQueue = [] → t.lineQueue = [])
      (buffer : s.lineQueue = [] → s.buffering.buffer.isEmpty →
        cuts = [] ∧ t.buffering.buffer.isEmpty)
  /-- A flush sends all that is left, and the barrier behind it. -/
  | sent (front : List Bool) (flushAsked : t.flushAsked = false)
      (road : t.road = s.road ++ front ++ [true]) (lineQueue : t.lineQueue = [])
      (buffer : t.buffering.buffer.isEmpty)

theorem Buffered.along (lineQueue : t.lineQueue = s.lineQueue)
    (buffer : t.buffering.buffer = s.buffering.buffer) (flushAsked : t.flushAsked = s.flushAsked)
    (road : t.road = s.road) : Buffered s t := by
  apply Buffered.cut [] flushAsked
  · simp [road]
  · exact fun none ↦ lineQueue.trans none
  · exact fun _ empty ↦ ⟨rfl, buffer ▸ empty⟩

theorem buffered_of_buffering? (whole : s.isTorn = false) (taken : s.buffering? setup = some t) :
    Buffered s t := by
  obtain ⟨opened, _, alive, _⟩ := isTorn_eq_false.mp whole
  cases action_of_buffering? taken with
  | stop ended => simp [opened, alive] at ended
  | enqueue opened handing => exact .along rfl rfl rfl (by simp [road, enqueue, handing])
  | @beginHandOver next rest opened free outbox =>
    cases next with
    | cut cut => exact .along rfl rfl rfl (by simp [road, beginHandOver, record, free, outbox])
    | barrier => exact .along rfl rfl rfl (by simp [road, beginHandOver, free, outbox])
  | restartTimer => exact .along rfl rfl rfl rfl
  | @gather chunk rest free started queue =>
    rw [gather_eq]
    apply Buffered.cut (s.buffering.buffer.add chunk).1
    · rfl
    · simp [road, free.handing?, free.outbox, Function.comp_def]
    · simp [queue]
    · simp [queue]
  | flushBuffer free started queue due =>
    rw [flushBuffer_eq]
    apply Buffered.cut s.buffering.buffer.flush.1.toList
    · rfl
    · simp [road, free.handing?, free.outbox, Function.comp_def]
    · exact fun _ ↦ queue
    · intro _ empty
      simp [LineBuffer.flush_of_isEmpty empty, empty]
  | flushOnRequest free started queue early asked =>
    rw [flushOnRequest, flushBuffer_eq]
    apply Buffered.sent (s.buffering.buffer.flush.1.toList.map fun _ ↦ false)
    · rfl
    · simp [road, free.handing?, free.outbox, Function.comp_def]
    · exact queue
    · exact LineBuffer.isEmpty_flush _

theorem Buffered.barrierHeld (buffered : Buffered s t) (held : s.barrierHeld) : t.barrierHeld := by
  rw [barrierHeld_iff] at held ⊢
  cases buffered with
  | cut cuts flushAsked road lineQueue buffer =>
    rw [flushAsked, road]
    exact held.imp_right (List.mem_append_left _)
  | sent front flushAsked road lineQueue buffer => simp [road]

theorem Buffered.barrierLast (buffered : Buffered s t) (last : s.flushAsked = false → s.BarrierLast)
    (minded : t.flushAsked = false) : t.BarrierLast := by
  cases buffered with
  | cut cuts flushAsked road lineQueue buffer =>
    have before := last (flushAsked ▸ minded)
    obtain ⟨rfl, empty⟩ := buffer before.lineQueue before.buffer
    have same : t.road = s.road := by simpa using road
    exact ⟨lineQueue before.lineQueue, empty, same ▸ before.road⟩
  | sent front flushAsked road lineQueue buffer =>
    refine ⟨lineQueue, buffer, fun flag ends ↦ ?_⟩
    obtain ⟨before, same⟩ := ends
    rw [road] at same
    exact List.singleton_inj.mp (List.append_inj' same rfl).2

/-! ## The alarm and the sending loop -/

/-- What the alarm and the sending loop take off the road. -/
inductive Sent (s t : State) : Prop
  | same (batchQueue : t.batchQueue = s.batchQueue)
  | batch (batch : Batch) (first : s.batchQueue = .batch batch :: t.batchQueue)
  | barrier (first : s.batchQueue = .barrier :: t.batchQueue) (retries : t.retryQueue = [])
      (idle : t.sending = .idle)

theorem sent_of_alarm? (taken : s.alarm? = some t) : Sent s t := by
  obtain ⟨_, rfl⟩ := fire_of_alarm? taken
  rw [withBacklog_eq]
  exact .same rfl

theorem batchQueue_of_takenUp {batch : Batch} (taken : TakenUp setup s batch t) :
    t.batchQueue = s.batchQueue := by
  cases taken <;> rfl

theorem sent_of_sending? (calm : setup.NeverCrashes) (whole : s.isTorn = false)
    (taken : s.sending? setup = some t) : Sent s t := by
  obtain ⟨opened, running, _, _⟩ := isTorn_eq_false.mp whole
  cases action_of_sending? taken with
  | stop idle ended => simp [opened, running] at ended
  | @again batch rest _ idle opened retries taken =>
    exact .same (batchQueue_of_takenUp (s := { s with retryQueue := rest }) taken)
  | @fresh batch rest _ idle opened noRetry parcels taken =>
    have left := batchQueue_of_takenUp (s := { s with batchQueue := rest }) taken
    exact .batch batch (left.symm ▸ parcels)
  | barrier idle opened noRetry parcels => exact .barrier parcels noRetry idle
  | endCall busy isOver ended =>
    cases ended with
    | crashed crash => exact absurd crash (calm _ _)
    | _ => exact .same rfl

theorem Sent.suffix (sent : Sent s t) : t.batchQueue <:+ s.batchQueue := by
  cases sent with
  | same batchQueue => exact batchQueue ▸ List.suffix_rfl
  | batch batch first => exact first ▸ List.suffix_cons _ _
  | barrier first retries idle => exact first ▸ List.suffix_cons _ _

theorem BarrierLast.of_front (last : s.BarrierLast) (front : t.front = s.front)
    (fewer : t.batchQueue <:+ s.batchQueue) : t.BarrierLast := by
  have lineQueue : t.lineQueue = s.lineQueue := congrArg Front.lineQueue front
  have buffering : t.buffering = s.buffering := congrArg Front.buffering front
  have less : t.road <:+ s.road := by
    obtain ⟨taken, queue⟩ := fewer
    exact ⟨taken.map (· == .barrier), by simp [State.road, ← queue, buffering]⟩
  exact ⟨lineQueue.trans last.lineQueue, buffering ▸ last.buffer,
    fun flag ends ↦ last.road flag (ends.trans less)⟩

/-- The barrier leaves the road last, and nothing else is left then. -/
theorem Sent.barrierHeld_or_clear (sent : Sent s t) (front : t.front = s.front)
    (last : s.flushAsked = false → s.BarrierLast) (held : s.barrierHeld) :
    t.barrierHeld ∨ t.ledger.Clear := by
  have asked : t.flushAsked = s.flushAsked := congrArg Front.flushAsked front
  have buffering : t.buffering = s.buffering := congrArg Front.buffering front
  cases sent with
  | same batchQueue =>
    left
    rw [barrierHeld_iff] at held ⊢
    simpa [road, asked, buffering, batchQueue] using held
  | batch batch first =>
    left
    rw [barrierHeld_iff] at held ⊢
    simpa [road, asked, buffering, first] using held
  | barrier first retries idle =>
    cases passed : t.barrierHeld with
    | true => exact .inl rfl
    | false =>
      have minded : s.flushAsked = false := by
        by_contra asking
        simp [barrierHeld, asked, asking] at passed
      have behind := (last minded).of_front front (first ▸ List.suffix_cons _ _)
      exact .inr (behind.clear passed retries idle)

/-! ## The client -/

theorem wait?_endWait (s : State) (wait : Wait) : (s.endWait wait).wait? = none := by
  cases wait with
  | bothLoops residual =>
    rw [endWait_bothLoops]
  | barrier => rfl
  | instant time => rfl

/-- A client that begins to wait for a barrier has just asked for it. -/
theorem flushAsked_of_client? (taken : s.client? setup = some t) (waits : t.wait? = some .barrier) :
    t.flushAsked := by
  cases action_of_client? taken with
  | endWait => simp [wait?_endWait] at waits
  | serve free asked served =>
    cases served with
    | flush => rfl
    | flushStopped => simp [record, withBacklog_eq, free] at waits
    | sleep => simp at waits
    | close => simp at waits
    | _ => simp [record, finishClose, giveUp, free] at waits

end State

/-! ## Runs -/

namespace Reachable

variable {setup : Setup} {s t : State}

theorem isTorn_eq_false_of_waits (reachable : Reachable setup s) (calm : setup.NeverCrashes)
    (waits : s.wait? = some .barrier) : s.isTorn = false :=
  reachable.isTorn_eq_false calm (reachable.standing.barrier waits)

theorem barrierSent_move (reachable : Reachable setup s) (calm : setup.NeverCrashes)
    (sent : s.BarrierSent) (move : Move setup s t) : t.BarrierSent := by
  intro waits minded
  cases move with
  | step task taken =>
    cases task with
    | buffering =>
      have wait : t.wait? = s.wait? := congrArg Rear.wait? (State.rear_of_buffering? taken)
      have whole := reachable.isTorn_eq_false_of_waits calm (wait ▸ waits)
      exact (State.buffered_of_buffering? whole taken).barrierLast (sent (wait ▸ waits)) minded
    | alarm =>
      have front := State.front_of_alarm? taken
      have wait : t.wait? = s.wait? := congrArg Front.wait? front
      have asked : t.flushAsked = s.flushAsked := congrArg Front.flushAsked front
      have last := sent (wait ▸ waits) (asked ▸ minded)
      exact last.of_front front (State.sent_of_alarm? taken).suffix
    | sending =>
      have front := State.front_of_sending? taken
      have wait : t.wait? = s.wait? := congrArg Front.wait? front
      have asked : t.flushAsked = s.flushAsked := congrArg Front.flushAsked front
      have whole := reachable.isTorn_eq_false_of_waits calm (wait ▸ waits)
      have last := sent (wait ▸ waits) (asked ▸ minded)
      exact last.of_front front (State.sent_of_sending? calm whole taken).suffix
    | client => simp [State.flushAsked_of_client? taken waits] at minded
  | pass now later => exact { sent waits minded with }
  | ask requests idle => exact { sent waits minded with }

theorem barrierSent (reachable : Reachable setup s) (calm : setup.NeverCrashes) :
    s.BarrierSent := by
  induction reachable with
  | start started =>
    rw [(start?_eq_ok started).2]
    intro waits
    simp [State.start, State.record] at waits
  | move before move ih => exact before.barrierSent_move calm ih move

/-- A client waits for its barrier until nothing is on its way. -/
theorem barrierHeld_or_clear (reachable : Reachable setup s) (calm : setup.NeverCrashes)
    (waits : s.wait? = some .barrier) (held : s.barrierHeld) (move : Move setup s t) :
    t.wait? = some .barrier ∧ t.barrierHeld ∨ t.ledger.Clear := by
  have whole := reachable.isTorn_eq_false_of_waits calm waits
  have sent := reachable.barrierSent calm waits
  cases move with
  | step task taken =>
    cases task with
    | buffering =>
      have wait : t.wait? = s.wait? := congrArg Rear.wait? (State.rear_of_buffering? taken)
      exact .inl ⟨wait.trans waits, (State.buffered_of_buffering? whole taken).barrierHeld held⟩
    | alarm =>
      have front := State.front_of_alarm? taken
      have wait : t.wait? = s.wait? := congrArg Front.wait? front
      have after := (State.sent_of_alarm? taken).barrierHeld_or_clear front sent held
      exact after.imp_left fun held ↦ ⟨wait.trans waits, held⟩
    | sending =>
      have front := State.front_of_sending? taken
      have wait : t.wait? = s.wait? := congrArg Front.wait? front
      have after := (State.sent_of_sending? calm whole taken).barrierHeld_or_clear front sent held
      exact after.imp_left fun held ↦ ⟨wait.trans waits, held⟩
    | client => simp [State.step?, State.client?, waits, State.waitIsOver, held] at taken
  | pass now later => exact .inl ⟨waits, held⟩
  | ask requests idle => simp [State.clientIdle, waits] at idle

/-- Before nobody holds the barrier any more, there is a moment at which nothing is on its way. -/
theorem exists_clear (reachable : Reachable setup s) (calm : setup.NeverCrashes)
    (waits : s.wait? = some .barrier) (held : s.barrierHeld) (run : Runs setup s t) :
    t.wait? = some .barrier ∧ t.barrierHeld ∨
      ∃ clear, Runs setup s clear ∧ clear.ledger.Clear ∧ Runs setup clear t := by
  induction run with
  | refl => exact .inl ⟨waits, held⟩
  | @tail t u run move ih =>
    rcases ih with ⟨waits, held⟩ | ⟨clear, before, isClear, after⟩
    · have now := reachable.runs run
      rcases now.barrierHeld_or_clear calm waits held move with still | isClear
      · exact .inl still
      · exact .inr ⟨u, run.tail move, isClear, .refl⟩
    · exact .inr ⟨clear, before, isClear, after.tail move⟩

end Reachable

end LineDelivery.Pipeline
