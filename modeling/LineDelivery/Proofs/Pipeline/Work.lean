import LineDelivery.Proofs.Pipeline.Quiescence
import Mathlib.Algebra.BigOperators.Group.List.Basic

/-!
# The tasks come to rest

Every step leaves less work than it found, whichever task takes it. So the tasks take only so many
steps at one instant, whatever their order; the scheduler lets them take enough of them; and a call
that returns whatever the tasks do next returns without waiting on time.
-/

namespace LineDelivery

namespace Backlog

/-- What is held after an addition weighs at most what was held and the item that was added. -/
theorem sum_add_le (weight : Item → Nat) (backlog : Backlog) (now : Nat) (batch : Batch)
    (delay : Nat) :
    ((backlog.add now batch delay).1.items.map weight).sum ≤
      (backlog.items.map weight).sum + weight (.schedule now batch delay) := by
  generalize backlog.add now batch delay = result, backlog.add_added now batch delay = added
  cases added with
  | ignored | refused => exact Nat.le_add_right _ _
  | taken =>
    have moved := ((insert_makeRoom_perm backlog (.schedule now batch delay)).map weight).sum_nat
    simp only [List.map_append, List.sum_append, List.map_cons, List.sum_cons] at moved
    dsimp only
    omega

/-- An alarm that is due hands something back. -/
theorem Sound.exists_due {backlog : Backlog} (sound : backlog.Sound) {now : Nat}
    (due : backlog.alarmDue now) : (backlog.fire now).2 ≠ [] := by
  have opened := sound.opened_of_alarmDue due
  simp only [alarmDue, sound.alarm, opened, Bool.false_eq_true, if_false, alarmFor] at due
  cases items : backlog.items with
  | nil => simp [items] at due
  | cons first rest =>
    have early : first.retryTime ≤ now := by simpa [items] using due
    simp [Backlog.fire, items, Item.isDue, early]

end Backlog

namespace LineBuffer

variable {buffer : LineBuffer}

theorem length_le_flatMap_chunks (cuts : List Cut) (filled : ∀ cut ∈ cuts, cut.chunks ≠ []) :
    cuts.length ≤ (cuts.flatMap Cut.chunks).length := by
  induction cuts with
  | nil => rfl
  | cons cut cuts ih =>
    obtain ⟨first, rest⟩ := List.forall_mem_cons.mp filled
    have some : 0 < cut.chunks.length := List.length_pos_iff.mpr first
    have more := ih rest
    simp only [List.length_cons, List.flatMap_cons, List.length_append]
    omega

/-- A cut takes a chunk at least, so cuts and chunks together become no more but for a new one. -/
theorem length_add_le (buffer : LineBuffer) {chunk : Bytes} (filled : chunk ≠ []) :
    (buffer.add chunk).1.length + (buffer.add chunk).2.newestFirst.length ≤
      buffer.newestFirst.length + 1 := by
  have kept := congrArg List.length (chunks_add buffer filled)
  have few := length_le_flatMap_chunks (buffer.add chunk).1 fun _ ↦ filled_of_mem_add
  simp only [List.length_append, chunks, List.length_reverse, List.length_singleton] at kept
  omega

theorem length_flush_le (buffer : LineBuffer) :
    buffer.flush.1.toList.length + buffer.flush.2.newestFirst.length ≤
      buffer.newestFirst.length := by
  have kept := congrArg List.length (chunks_flush buffer)
  have few := length_le_flatMap_chunks buffer.flush.1.toList fun _ ↦ filled_of_mem_flush
  simp only [List.length_append, chunks, List.length_reverse] at kept
  omega

end LineBuffer

namespace Pipeline

namespace State

variable {setup : Setup} {s t : State}

/-! ## The parts of the work -/

/-- The steps that the client's requests and its wait can still cause. -/
def requestsWork (setup : Setup) (s : State) : Nat :=
  (s.requests.map (requestWork setup)).sum + if s.wait?.isSome then 1 else 0

/-- The steps that what the client sent to the buffering loop can still cause. -/
def sentWork (setup : Setup) (s : State) : Nat :=
  s.lineQueue.length * (cutWork setup + 1) + if s.flushAsked then 5 else 0

/-- The steps that the sending loop, its queues and the backlog can still cause. -/
def rearWork (s : State) : Nat :=
  s.sendingWork + (s.batchQueue.map parcelWork).sum + (s.retryQueue.map batchWork).sum +
    (s.backlog.items.map fun item ↦ batchWork item.batch + 1).sum

theorem work_eq (setup : Setup) (s : State) :
    s.work setup =
      s.requestsWork setup + s.sentWork setup + s.bufferingWork setup + s.rearWork := by
  simp only [work, clientWork, requestsWork, sentWork, rearWork, List.sum_eq_foldr]
  omega

/-- The front has the same work as long as nothing in it changes and no time passes. -/
theorem frontWork_eq (setup : Setup) (front : t.front = s.front) (now : t.now = s.now) :
    t.requestsWork setup = s.requestsWork setup ∧ t.sentWork setup = s.sentWork setup ∧
      t.bufferingWork setup = s.bufferingWork setup := by
  have requests : t.requests = s.requests := congrArg Front.requests front
  have wait : t.wait? = s.wait? := congrArg Front.wait? front
  have lines : t.lineQueue = s.lineQueue := congrArg Front.lineQueue front
  have asked : t.flushAsked = s.flushAsked := congrArg Front.flushAsked front
  have buffering : t.buffering = s.buffering := congrArg Front.buffering front
  simp only [requestsWork, sentWork, bufferingWork, timerWork, requests, wait, lines, asked,
    buffering, now, and_self]

/-! ## The rear -/

theorem rearWork_of_takenUp {batch : Batch} (idle : s.sending = .idle)
    (taken : TakenUp setup s batch t) : t.rearWork < s.rearWork + batchWork batch := by
  cases taken with
  | expired => simp [rearWork, sendingWork, idle, batchWork]
  | called =>
    simp only [rearWork, sendingWork, idle]
    omega

theorem rearWork_of_callEnded {call : Call} (busy : s.sending = .calling call)
    (ended : CallEnded setup s call t) : t.rearWork < s.rearWork := by
  cases ended with
  | crashed =>
    simp only [rearWork, sendingWork, busy, batchWork, apply_ite Backlog.items, Backlog.close,
      ite_self, List.map_nil, List.sum_nil]
    omega
  | delivered | abandoned => simp [rearWork, sendingWork, busy, batchWork]
  | @retried took error delay added failure wanted left isDelay isAdded =>
    have few := s.backlog.sum_add_le (fun item ↦ batchWork item.batch + 1) s.now
      { call.batch with remaining := call.batch.remaining - 1 } delay
    rw [← isAdded] at few
    simp only [rearWork, sendingWork, busy, batchWork, Backlog.Item.schedule] at few ⊢
    omega

theorem rearWork_of_sending? (taken : s.sending? setup = some t) : t.rearWork < s.rearWork := by
  cases action_of_sending? taken with
  | stop idle =>
    simp only [rearWork, stopSending, record, sendingWork, idle, Backlog.close, List.map_nil,
      List.sum_nil]
    omega
  | @again batch rest _ idle opened retries taken =>
    have less := rearWork_of_takenUp (s := { s with retryQueue := rest }) idle taken
    simp only [rearWork, sendingWork, idle, retries, List.map_cons, List.sum_cons] at less ⊢
    omega
  | @fresh batch rest _ idle opened noRetry parcels taken =>
    have less := rearWork_of_takenUp (s := { s with batchQueue := rest }) idle taken
    simp only [rearWork, sendingWork, idle, parcels, List.map_cons, List.sum_cons, parcelWork]
      at less ⊢
    omega
  | barrier idle opened noRetry parcels =>
    simp [rearWork, sendingWork, idle, parcels, parcelWork]
  | endCall busy isOver ended => exact rearWork_of_callEnded busy ended

/-- Handing a batch back takes a step off what it can still cause. -/
theorem rearWork_withBacklog {outcome : Backlog × List Batch}
    (handed : outcome.2 ++ outcome.1.items.map Backlog.Item.batch =
      s.backlog.items.map Backlog.Item.batch) :
    (s.withBacklog outcome).rearWork + outcome.2.length ≤ s.rearWork := by
  have each (items : List Backlog.Item) :
      (items.map fun item ↦ batchWork item.batch + 1).sum =
        ((items.map Backlog.Item.batch).map batchWork).sum + items.length := by
    simp [List.sum_map_add, Function.comp_def]
  have lengths := congrArg List.length handed
  simp only [List.length_append, List.length_map] at lengths
  have sending : (s.withBacklog outcome).sendingWork = s.sendingWork := by
    rw [withBacklog_eq]
    rfl
  rw [rearWork, rearWork, sending, withBacklog_eq]
  simp only [each, ← handed, List.map_append, List.sum_append]
  cases s.sending.isOver with
  | true =>
    simp only [if_true]
    omega
  | false =>
    simp only [Bool.false_eq_true, if_false, List.map_append, List.sum_append]
    omega

theorem rearWork_of_alarm? (sound : s.backlog.Sound) (taken : s.alarm? = some t) :
    t.rearWork < s.rearWork := by
  obtain ⟨due, rfl⟩ := fire_of_alarm? taken
  have some := List.length_pos_iff.mpr (sound.exists_due due)
  have less := rearWork_withBacklog (s := s) (Backlog.fire_perm s.backlog s.now)
  omega

/-! ## The buffering loop -/

theorem bufferingWork_eq (running : s.buffering.running) :
    s.bufferingWork setup = s.buffering.buffer.newestFirst.length * cutWork setup +
      (s.buffering.outbox.map (outgoingWork setup)).sum +
      (s.buffering.handing?.elim 0 fun parcel ↦ parcelWork parcel + 1) + 1 + s.timerWork := by
  simp only [bufferingWork, running, if_true, List.sum_eq_foldr]
  omega

theorem work_lt_of_stopBuffering (running : s.buffering.running) :
    s.stopBuffering.work setup < s.work setup := by
  have loop : s.stopBuffering.bufferingWork setup = 0 := by
    simp [bufferingWork, stopBuffering, record, LineBuffer.empty]
  have sent : s.stopBuffering.sentWork setup = 0 := by
    simp [sentWork, stopBuffering, record]
  have requests : s.stopBuffering.requestsWork setup = s.requestsWork setup := rfl
  have rear : s.stopBuffering.rearWork = s.rearWork := rfl
  rw [work_eq, work_eq, requests, sent, loop, rear, bufferingWork_eq running]
  omega

theorem work_lt_of_enqueue {parcel : Parcel} (handing : s.buffering.handing? = some parcel)
    (running : s.buffering.running) : (s.enqueue parcel).work setup < s.work setup := by
  have requests : (s.enqueue parcel).requestsWork setup = s.requestsWork setup := rfl
  have sent : (s.enqueue parcel).sentWork setup = s.sentWork setup := rfl
  have timer : (s.enqueue parcel).timerWork = s.timerWork := rfl
  have rear : (s.enqueue parcel).rearWork = s.rearWork + parcelWork parcel := by
    simp only [rearWork, sendingWork, enqueue, List.map_append, List.sum_append, List.map_cons,
      List.map_nil, List.sum_cons, List.sum_nil]
    omega
  rw [work_eq, work_eq, requests, sent, rear, bufferingWork_eq running,
    bufferingWork_eq (by exact running), timer]
  simp only [enqueue, handing, Option.elim]
  omega

theorem work_lt_of_beginHandOver {next : Outgoing} {rest : List Outgoing}
    (free : s.buffering.handing? = none) (outbox : s.buffering.outbox = next :: rest)
    (running : s.buffering.running) :
    (s.beginHandOver setup next rest).work setup < s.work setup := by
  have parts : (s.beginHandOver setup next rest).requestsWork setup = s.requestsWork setup ∧
      (s.beginHandOver setup next rest).sentWork setup = s.sentWork setup ∧
      (s.beginHandOver setup next rest).rearWork = s.rearWork ∧
      (s.beginHandOver setup next rest).timerWork = s.timerWork ∧
      (s.beginHandOver setup next rest).buffering.running := by
    cases next <;> exact ⟨rfl, rfl, rfl, rfl, running⟩
  obtain ⟨requests, sent, rear, timer, still⟩ := parts
  rw [work_eq, work_eq, requests, sent, rear, bufferingWork_eq running, bufferingWork_eq still,
    timer]
  cases next <;>
    simp only [beginHandOver, record, free, outbox, Option.elim, List.map_cons, List.sum_cons,
      outgoingWork, parcelWork, cutWork, batchWork, Batch.form] <;> omega

theorem work_lt_of_restartTimer (interval : 0 < setup.flushInterval)
    (running : s.buffering.running) (restart : s.buffering.restart) :
    (s.restartTimer setup).work setup < s.work setup := by
  have requests : (s.restartTimer setup).requestsWork setup = s.requestsWork setup := rfl
  have sent : (s.restartTimer setup).sentWork setup = s.sentWork setup := rfl
  have rear : (s.restartTimer setup).rearWork = s.rearWork := rfl
  have before : s.timerWork = 1 := if_pos restart
  have after : (s.restartTimer setup).timerWork = 0 := by
    simp only [timerWork, restartTimer, Bool.false_eq_true, if_false]
    exact if_neg (by omega)
  rw [work_eq, work_eq, requests, sent, rear, bufferingWork_eq running,
    bufferingWork_eq (by exact running), before, after]
  simp only [restartTimer]
  omega

/-- What is cut goes into the empty outbox, and what is not cut stays. -/
theorem bufferingWork_of_cut (cuts : List LineBuffer.Cut) (more barrier : Nat)
    (running : s.buffering.running) (outbox : s.buffering.outbox = [])
    (handing : t.buffering.handing? = s.buffering.handing?) (still : t.buffering.running)
    (sent : (t.buffering.outbox.map (outgoingWork setup)).sum =
      cuts.length * cutWork setup + barrier)
    (few : cuts.length + t.buffering.buffer.newestFirst.length ≤
      s.buffering.buffer.newestFirst.length + more) :
    t.bufferingWork setup + s.timerWork ≤
      s.bufferingWork setup + t.timerWork + more * cutWork setup + barrier := by
  have weighed := Nat.mul_le_mul_right (cutWork setup) few
  rw [Nat.add_mul, Nat.add_mul] at weighed
  rw [bufferingWork_eq running, bufferingWork_eq still, sent, handing, outbox]
  simp only [List.map_nil, List.sum_nil]
  omega

theorem sum_outgoingWork (cuts : List LineBuffer.Cut) :
    ((cuts.map Outgoing.cut).map (outgoingWork setup)).sum = cuts.length * cutWork setup := by
  simp [Function.comp_def, outgoingWork]

theorem work_lt_of_gather {chunk : Bytes} {rest : List Bytes} (running : s.buffering.running)
    (free : s.HandsFree) (filled : chunk ≠ []) (queue : s.lineQueue = chunk :: rest) :
    (s.gather chunk rest).work setup < s.work setup := by
  have loop : (s.gather chunk rest).bufferingWork setup + s.timerWork ≤
      s.bufferingWork setup + s.timerWork + 1 * cutWork setup + 0 := by
    rw [gather_eq]
    exact bufferingWork_of_cut (s.buffering.buffer.add chunk).1 1 0 running free.outbox rfl running
      (sum_outgoingWork _) (s.buffering.buffer.length_add_le filled)
  have sent : (s.gather chunk rest).sentWork setup + (cutWork setup + 1) = s.sentWork setup := by
    rw [gather_eq]
    simp only [sentWork, queue, List.length_cons, Nat.add_mul, Nat.one_mul]
    omega
  have others : (s.gather chunk rest).requestsWork setup = s.requestsWork setup ∧
      (s.gather chunk rest).rearWork = s.rearWork := by
    rw [gather_eq]
    exact ⟨rfl, rfl⟩
  rw [work_eq, work_eq, others.1, others.2]
  omega

theorem work_lt_of_flushBuffer (running : s.buffering.running) (free : s.HandsFree)
    (started : s.buffering.restart = false) (due : s.buffering.flushAt ≤ s.now) :
    s.flushBuffer.work setup < s.work setup := by
  have before : s.timerWork = 2 := by simp [timerWork, started, due]
  have loop : s.flushBuffer.bufferingWork setup + s.timerWork ≤
      s.bufferingWork setup + 1 + 0 * cutWork setup + 0 := by
    rw [flushBuffer_eq]
    exact bufferingWork_of_cut s.buffering.buffer.flush.1.toList 0 0 running free.outbox rfl running
      (sum_outgoingWork _) s.buffering.buffer.length_flush_le
  have others : s.flushBuffer.requestsWork setup = s.requestsWork setup ∧
      s.flushBuffer.sentWork setup = s.sentWork setup ∧ s.flushBuffer.rearWork = s.rearWork := by
    rw [flushBuffer_eq]
    exact ⟨rfl, rfl, rfl⟩
  rw [work_eq, work_eq, others.1, others.2.1, others.2.2]
  omega

theorem work_lt_of_flushOnRequest (running : s.buffering.running) (free : s.HandsFree)
    (started : s.buffering.restart = false) (early : s.now < s.buffering.flushAt)
    (asked : s.flushAsked) : s.flushOnRequest.work setup < s.work setup := by
  have before : s.timerWork = 0 := by simp [timerWork, started, early]
  have loop : s.flushOnRequest.bufferingWork setup + s.timerWork ≤
      s.bufferingWork setup + 1 + 0 * cutWork setup + 3 := by
    rw [flushOnRequest, flushBuffer_eq]
    refine bufferingWork_of_cut s.buffering.buffer.flush.1.toList 0 3 running free.outbox rfl running
      ?_ s.buffering.buffer.length_flush_le
    rw [List.map_append, List.sum_append, sum_outgoingWork]
    rfl
  have sent : s.flushOnRequest.sentWork setup + 5 = s.sentWork setup := by
    rw [flushOnRequest, flushBuffer_eq]
    simp only [sentWork, asked, if_true, Bool.false_eq_true, if_false]
  have others : s.flushOnRequest.requestsWork setup = s.requestsWork setup ∧
      s.flushOnRequest.rearWork = s.rearWork := by
    rw [flushOnRequest, flushBuffer_eq]
    exact ⟨rfl, rfl⟩
  rw [work_eq, work_eq, others.1, others.2]
  omega

theorem work_lt_of_buffering? (interval : 0 < setup.flushInterval) (filled : s.Filled)
    (taken : s.buffering? setup = some t) : t.work setup < s.work setup := by
  have running := running_of_buffering? taken
  cases action_of_buffering? taken with
  | stop => exact work_lt_of_stopBuffering running
  | enqueue opened handing => exact work_lt_of_enqueue handing running
  | beginHandOver opened free outbox => exact work_lt_of_beginHandOver free outbox running
  | restartTimer free restart => exact work_lt_of_restartTimer interval running restart
  | @gather chunk rest free started queue =>
    exact work_lt_of_gather running free (filled.lines chunk (by simp [queue])) queue
  | flushBuffer free started queue due => exact work_lt_of_flushBuffer running free started due
  | flushOnRequest free started queue early asked =>
    exact work_lt_of_flushOnRequest running free started early asked

/-! ## The client -/

/-- A call that makes the client wait leaves one step, the end of the wait. -/
theorem requestsWork_le (free : s.wait? = none) (requests : t.requests = s.requests) :
    t.requestsWork setup ≤ s.requestsWork setup + 1 := by
  simp only [requestsWork, free, requests]
  split <;> simp

theorem sentWork_le (queue : t.lineQueue = s.lineQueue) :
    t.sentWork setup ≤ s.sentWork setup + 5 := by
  simp only [sentWork, queue]
  split <;> split <;> omega

theorem sentWork_of_accepted {chunk : Bytes} (queue : t.lineQueue = s.lineQueue ++ [chunk])
    (asked : t.flushAsked = s.flushAsked) :
    t.sentWork setup = s.sentWork setup + (cutWork setup + 1) := by
  simp only [sentWork, queue, asked, List.length_append, List.length_singleton, Nat.add_mul,
    Nat.one_mul]
  omega

theorem rearWork_releaseAll (s : State) :
    (s.withBacklog s.backlog.releaseAll).rearWork ≤ s.rearWork := by
  have handed : s.backlog.releaseAll.2 ++ s.backlog.releaseAll.1.items.map Backlog.Item.batch =
      s.backlog.items.map Backlog.Item.batch := by simp [Backlog.releaseAll]
  exact (Nat.le_add_right _ _).trans (rearWork_withBacklog handed)

theorem work_lt_of_served {request : Request} (free : s.wait? = none)
    (served : Served setup s request t) :
    t.work setup < s.work setup + requestWork setup request := by
  have less (waiting sent : Nat) (requests : t.requestsWork setup ≤ s.requestsWork setup + waiting)
      (onWay : t.sentWork setup ≤ s.sentWork setup + sent)
      (enough : waiting + sent < requestWork setup request)
      (loop : t.bufferingWork setup = s.bufferingWork setup) (rear : t.rearWork ≤ s.rearWork) :
      t.work setup < s.work setup + requestWork setup request := by
    rw [work_eq, work_eq, loop]
    omega
  have some : 0 < requestWork setup request := by cases request <;> simp [requestWork]
  have front := front_withBacklog s s.backlog.releaseAll
  have now : (s.withBacklog s.backlog.releaseAll).now = s.now := by rw [withBacklog_eq]
  obtain ⟨requests, sent, loop⟩ := frontWork_eq setup front now
  cases served with
  | accepted =>
    exact less 0 (cutWork setup + 1) le_rfl (le_of_eq (sentWork_of_accepted rfl rfl))
      (by simp [requestWork]) rfl le_rfl
  | flushStopped => exact less 0 0 requests.le sent.le some loop (rearWork_releaseAll s)
  | flush =>
    exact less 1 5 (requestsWork_le free (congrArg Front.requests front))
      (sentWork_le (congrArg Front.lineQueue front)) (by simp [requestWork]) loop
      (rearWork_releaseAll s)
  | giveUp =>
    have rear : s.giveUp.rearWork = s.rearWork := by
      unfold giveUp
      split <;> rfl
    exact less 0 0 le_rfl le_rfl some rfl rear.le
  | close | sleep =>
    exact less 1 0 (requestsWork_le free rfl) le_rfl (by simp [requestWork]) rfl le_rfl
  | _ => exact less 0 0 le_rfl le_rfl some rfl le_rfl

theorem work_lt_of_client? (taken : s.client? setup = some t) : t.work setup < s.work setup := by
  cases action_of_client? taken with
  | @endWait wait waits isOver =>
    have before : s.requestsWork setup = (s.requests.map (requestWork setup)).sum + 1 := by
      simp [requestsWork, waits]
    have after : (s.endWait wait).requestsWork setup =
          (s.requests.map (requestWork setup)).sum ∧
        (s.endWait wait).sentWork setup = s.sentWork setup ∧
        (s.endWait wait).bufferingWork setup = s.bufferingWork setup ∧
        (s.endWait wait).rearWork = s.rearWork := by
      cases wait with
      | bothLoops residual =>
        rw [endWait_bothLoops]
        exact ⟨rfl, rfl, rfl, rfl⟩
      | _ => exact ⟨rfl, rfl, rfl, rfl⟩
    rw [work_eq, work_eq, before, after.1, after.2.1, after.2.2.1, after.2.2.2]
    omega
  | @serve request rest _ free asked served =>
    have less := work_lt_of_served (s := { s with requests := rest }) free served
    have before : s.requestsWork setup =
        { s with requests := rest }.requestsWork setup + requestWork setup request := by
      simp only [requestsWork, asked, List.map_cons, List.sum_cons]
      omega
    have others : { s with requests := rest }.sentWork setup = s.sentWork setup ∧
        { s with requests := rest }.bufferingWork setup = s.bufferingWork setup ∧
        { s with requests := rest }.rearWork = s.rearWork := ⟨rfl, rfl, rfl⟩
    rw [work_eq setup { s with requests := rest }, others.1, others.2.1, others.2.2] at less
    rw [work_eq setup s, before]
    omega

/-! ## All tasks -/

/-- Whoever takes a step leaves less to do at this instant. -/
theorem work_lt_of_step? (interval : 0 < setup.flushInterval) (standing : s.Standing) {task : Task}
    (taken : s.step? setup task = some t) : t.work setup < s.work setup := by
  have now := now_of_step? taken
  cases task with
  | buffering => exact work_lt_of_buffering? interval standing.toFilled taken
  | alarm =>
    obtain ⟨requests, sent, loop⟩ := frontWork_eq setup (front_of_alarm? taken) now
    have rear := rearWork_of_alarm? standing.backlog taken
    rw [work_eq, work_eq, requests, sent, loop]
    omega
  | sending =>
    obtain ⟨requests, sent, loop⟩ := frontWork_eq setup (front_of_sending? taken) now
    have rear := rearWork_of_sending? taken
    rw [work_eq, work_eq, requests, sent, loop]
    omega
  | client => exact work_lt_of_client? taken

/-! ## Coming to rest -/

theorem quiescent_of_turn? {last : Task} (none : s.turn? setup last = none) :
    s.Quiescent setup := by
  intro task
  have tried : task ∈ last :: Task.all := by cases task <;> simp [Task.all]
  simpa using List.findSome?_eq_none_iff.mp none task tried

/-- The scheduler's turns are enough. -/
theorem quiescent_takeTurns (interval : 0 < setup.flushInterval) (standing : s.Standing)
    {turns : Nat} (enough : s.work setup ≤ turns) (last : Task) :
    (takeTurns setup turns last s).Quiescent setup := by
  induction turns generalizing s last with
  | zero =>
    intro task
    cases step : s.step? setup task with
    | none => exact step
    | some t =>
      have less := work_lt_of_step? interval standing step
      omega
  | succ turns ih =>
    unfold takeTurns
    split
    · next none => exact quiescent_of_turn? none
    · next task t turn =>
      have taken := step?_of_turn? turn
      have less := work_lt_of_step? interval standing taken
      exact ih (standing.step? taken) (by omega) task

end State

/-! ## Whatever the tasks do next -/

/-- Any number of steps of the tasks, in any order, without time passing. -/
abbrev Turns (setup : Setup) : State → State → Prop :=
  Relation.ReflTransGen fun s t ↦ ∃ task, s.step? setup task = some t

/-- Whatever the tasks do next, the writer comes to such a state before any time passes. -/
inductive AtOnce (setup : Setup) (goal : State → Prop) : State → Prop
  | now {s : State} (reached : goal s) : AtOnce setup goal s
  | next {s : State} (busy : ¬ s.Quiescent setup)
      (all : ∀ task t, s.step? setup task = some t → AtOnce setup goal t) : AtOnce setup goal s

variable {setup : Setup} {s t : State}

theorem Turns.runs (turns : Turns setup s t) : Runs setup s t := by
  induction turns with
  | refl => exact .refl
  | tail _ step ih =>
    obtain ⟨task, taken⟩ := step
    exact ih.tail (.step task taken)

namespace Reachable

theorem quiescent_settle (reachable : Reachable setup s) : (s.settle setup).Quiescent setup :=
  State.quiescent_takeTurns reachable.flushInterval_pos reachable.standing le_rfl _

/-- What holds whenever the tasks have come to rest is reached at once. -/
theorem atOnce {goal : State → Prop} (reachable : Reachable setup s)
    (rests : ∀ t, Turns setup s t → t.Quiescent setup → goal t) : AtOnce setup goal s := by
  induction work : s.work setup using Nat.strong_induction_on generalizing s with
  | _ work ih =>
    by_cases quiescent : s.Quiescent setup
    · exact .now (rests s .refl quiescent)
    · refine .next quiescent fun task t taken ↦ ?_
      have less := State.work_lt_of_step? reachable.flushInterval_pos reachable.standing taken
      refine ih _ (by omega) (reachable.move (.step task taken)) ?_ rfl
      exact fun u turns ↦ rests u (.head ⟨task, taken⟩ turns)

end Reachable

end Pipeline

end LineDelivery
