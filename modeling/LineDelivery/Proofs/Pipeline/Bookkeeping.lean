import LineDelivery.Proofs.Backlog.Holdings
import LineDelivery.Proofs.LineBuffer.Contents
import LineDelivery.Proofs.Pipeline.Actions
import LineDelivery.Proofs.Pipeline.Ledger

/-!
# The ledger follows the writer

Every move of a writer is a run of steps of its ledger. The buffering loop moves chunks along without
a trace in the ledger until it forms a batch, and time and waiting leave no trace at all.
-/

namespace LineDelivery.Pipeline

open Ledger (Steps)

def Outgoing.chunks : Outgoing → List Bytes
  | .cut taken => taken.chunks
  | .barrier => []

namespace State

variable {setup : Setup} {s t : State}

/-- Something was lost, or may be from now on. -/
def isTorn (s : State) : Bool :=
  s.closing || !s.buffering.running || s.sending.isOver || s.backlog.closed

def ledger (s : State) : Ledger where
  upstream := s.buffering.outbox.flatMap Outgoing.chunks ++ s.buffering.buffer.chunks ++
    s.lineQueue.map Line.terminate
  conveyor := s.batchQueue ++ s.buffering.handing?.toList
  retries := s.retryQueue
  held := s.backlog.items.map Backlog.Item.batch
  sending := s.sending
  formed := s.buffering.formed
  verdicts := s.verdicts
  torn := s.isTorn
  events := s.events

/-- No chunk and no cut is empty. -/
structure Filled (s : State) : Prop where
  lines : ∀ chunk ∈ s.lineQueue, chunk ≠ []
  cuts : ∀ cut, .cut cut ∈ s.buffering.outbox → cut.chunks ≠ []

/-! ## The buffering loop -/

theorem stopBuffering_ledger (s : State) : Steps setup s.ledger s.stopBuffering.ledger := by
  refine .head .tear (.head (.lose rfl (List.nil_sublist _)
    (List.sublist_append_left s.batchQueue _) (.refl _) le_rfl) ?_)
  apply Steps.reach (.single (.aside (.bufferingStopped s.buffering.buffer.lineCount) trivial))
  ext1 <;> simp [ledger, stopBuffering, record, isTorn, events]

theorem enqueue_ledger {parcel : Parcel} (handing : s.buffering.handing? = some parcel) :
    (s.enqueue parcel).ledger = s.ledger := by
  simp [ledger, enqueue, handing, isTorn, events]

theorem beginHandOver_ledger {next : Outgoing} {rest : List Outgoing} (filled : s.Filled)
    (outbox : s.buffering.outbox = next :: rest) (free : s.buffering.handing? = none) :
    Steps setup s.ledger (s.beginHandOver setup next rest).ledger := by
  cases next with
  | barrier =>
    apply Steps.reach (.single .sendBarrier)
    ext1 <;> simp [ledger, beginHandOver, outbox, free, isTorn, events, Outgoing.chunks]
  | cut cut =>
    let batch := Batch.form s.buffering.formed cut.chunks setup.maxRetries s.now setup.maxRetryTime
    have upstream : s.ledger.upstream = batch.chunks ++ (rest.flatMap Outgoing.chunks ++
        s.buffering.buffer.chunks ++ s.lineQueue.map Line.terminate) := by
      simp [ledger, outbox, batch, Batch.form, Outgoing.chunks]
    apply Steps.reach (.single (.form upstream (filled.cuts cut (by simp [outbox])) rfl rfl))
    ext1 <;> simp [ledger, beginHandOver, free, isTorn, events, record, batch]

/-- Cutting moves chunks from the buffer to the outbox. -/
theorem send_ledger {cuts : List LineBuffer.Cut} {buffer : LineBuffer}
    (outbox : s.buffering.outbox = [])
    (kept : cuts.flatMap LineBuffer.Cut.chunks ++ buffer.chunks = s.buffering.buffer.chunks) :
    Steps setup s.ledger (s.send cuts buffer).ledger := by
  have asides : ∀ event ∈ cuts.reverse.map Event.cut, event.IsAside := by
    simp only [List.mem_map]
    rintro _ ⟨cut, _, rfl⟩
    trivial
  apply Steps.reach (Steps.asides asides s.ledger)
  rw [send_eq]
  ext1
  case upstream => simp [ledger, outbox, ← kept, List.flatMap_map, Outgoing.chunks]
  all_goals simp [ledger, isTorn, events]

theorem gather_ledger {chunk : Bytes} {rest : List Bytes} (filled : s.Filled)
    (outbox : s.buffering.outbox = []) (queue : s.lineQueue = chunk :: rest) :
    Steps setup s.ledger (s.gather chunk rest).ledger := by
  have kept := LineBuffer.chunks_add s.buffering.buffer (filled.lines chunk (by simp [queue]))
  have asides : ∀ event ∈ (s.buffering.buffer.add chunk).1.reverse.map Event.cut ++ [.gathered chunk],
      event.IsAside := by
    simp only [List.mem_append, List.mem_map, List.mem_singleton]
    rintro _ (⟨cut, _, rfl⟩ | rfl) <;> trivial
  apply Steps.reach (Steps.asides asides s.ledger)
  rw [gather_eq]
  ext1
  case upstream =>
    simp only [ledger, outbox, queue, List.flatMap_map, Outgoing.chunks, kept]
    simp
  all_goals simp [ledger, isTorn, events]

theorem flushBuffer_ledger (outbox : s.buffering.outbox = []) :
    Steps setup s.ledger s.flushBuffer.ledger :=
  send_ledger (s := { s with buffering := { s.buffering with restart := true } }) outbox
    (LineBuffer.chunks_flush s.buffering.buffer)

theorem flushOnRequest_ledger (outbox : s.buffering.outbox = []) :
    Steps setup s.ledger s.flushOnRequest.ledger := by
  apply Steps.reach (flushBuffer_ledger (s := { s with flushAsked := false }) outbox)
  ext1 <;> simp [ledger, flushOnRequest, isTorn, events, Outgoing.chunks]

theorem buffering?_ledger (filled : s.Filled) (taken : s.buffering? setup = some t) :
    Steps setup s.ledger t.ledger := by
  cases action_of_buffering? taken with
  | stop => exact stopBuffering_ledger s
  | enqueue opened handing => exact enqueue_ledger handing ▸ .refl
  | beginHandOver opened free outbox => exact beginHandOver_ledger filled outbox free
  | restartTimer => exact .refl
  | gather free started queue => exact gather_ledger filled free.outbox queue
  | flushBuffer free => exact flushBuffer_ledger free.outbox
  | flushOnRequest free => exact flushOnRequest_ledger free.outbox

/-! ## The backlog -/

/-- What the backlog hands back goes before the sending loop, or is lost when that has ended. -/
theorem withBacklog_ledger {outcome : Backlog × List Batch}
    (handed : outcome.2 ++ outcome.1.items.map Backlog.Item.batch =
      s.backlog.items.map Backlog.Item.batch)
    (closed : outcome.1.closed = s.backlog.closed) :
    Steps setup s.ledger (s.withBacklog outcome).ledger := by
  have held : s.ledger.held =
      (outcome.2 : Multiset Batch) + (outcome.1.items.map Backlog.Item.batch : List Batch) := by
    rw [Multiset.coe_add, handed]
    rfl
  cases ended : s.sending.isOver with
  | true =>
    have torn : s.ledger.torn := by simp [ledger, isTorn, ended]
    have asides : ∀ event ∈ outcome.2.reverse.map fun batch ↦ Event.backlog (.discarded batch),
        event.IsAside := by
      simp only [List.mem_map]
      rintro _ ⟨batch, _, rfl⟩
      trivial
    refine .head (.lose torn (.refl _) (.refl _) (.refl _)
      (held ▸ Multiset.le_add_left _ _)) ?_
    apply Steps.reach (Steps.asides asides _)
    rw [withBacklog_eq]
    ext1 <;> simp [ledger, isTorn, events, closed, ended]
  | false =>
    apply Steps.reach (Steps.release held)
    rw [withBacklog_eq]
    ext1 <;> simp [ledger, isTorn, events, closed, ended]

theorem alarm?_ledger (taken : s.alarm? = some t) : Steps setup s.ledger t.ledger := by
  obtain ⟨_, rfl⟩ := fire_of_alarm? taken
  exact withBacklog_ledger (Backlog.fire_perm s.backlog s.now) rfl

theorem releaseAll_ledger (s : State) :
    Steps setup s.ledger (s.withBacklog s.backlog.releaseAll).ledger :=
  withBacklog_ledger (by simp [Backlog.releaseAll]) rfl

/-- The backlog takes a batch in, or says why not. -/
theorem added_ledger {l : Ledger} {backlog : Backlog} {item : Backlog.Item} {delay : Nat}
    {result : Backlog × List Backlog.Event} (added : backlog.Added item delay result)
    (filled : item.batch.lines ≠ []) (torn : backlog.closed → l.torn)
    (held : l.held = item.batch ::ₘ (backlog.items.map Backlog.Item.batch : List Batch)) :
    Steps setup l
      { l with
        held := result.1.items.map Backlog.Item.batch
        events := result.2.reverse.map .backlog ++ l.events } := by
  cases added with
  | ignored useless =>
    have closed : backlog.closed := useless.resolve_left filled
    refine .single (.lose (torn closed) (.refl _) (.refl _) (.refl _) ?_)
    exact held ▸ Multiset.le_cons_self _ _
  | refused => exact .single (.remove backlog.limit held)
  | taken =>
    let room := backlog.makeRoom item.lineCount
    have moved : l.held = (room.removed.map Backlog.Item.batch : List Batch) +
        ((backlog.insert room item).items.map Backlog.Item.batch : List Batch) := by
      have moved := (Backlog.insert_makeRoom_perm backlog item).map Backlog.Item.batch
      rw [List.map_append, List.map_cons] at moved
      rw [held, Multiset.cons_coe, Multiset.add_comm, Multiset.coe_add]
      exact (Multiset.coe_eq_coe.mpr moved).symm
    refine .trans (Steps.remove backlog.limit moved) ?_
    apply Steps.reach (.single (.aside (.backlog (.scheduled item delay)) trivial))
    ext1 <;> simp [room, Backlog.insert, Function.comp_def]

/-! ## The sending loop -/

theorem stopSending_ledger (idle : s.sending = .idle) :
    Steps setup s.ledger s.stopSending.ledger := by
  refine .head .tear (.head (.stop idle rfl) (.head (.lose rfl (.refl _)
    (List.sublist_append_right s.batchQueue _) (List.nil_sublist _) le_rfl) ?_))
  apply Steps.reach (.single (.aside .sendingStopped trivial))
  ext1 <;> simp [ledger, stopSending, isTorn, events, record, Backlog.close, Sending.isOver]

theorem takenUp_ledger {batch : Batch} {u : State} (idle : s.sending = .idle)
    (takes : s.ledger.Takes batch t.ledger) (taken : TakenUp setup t batch u) :
    Steps setup s.ledger u.ledger := by
  cases taken with
  | expired isOver =>
    apply Steps.reach (.single (.expire idle takes))
    ext1 <;> simp [ledger, isTorn, events]
  | called inTime =>
    have free : t.sending = .idle := takes.sending_eq.trans idle
    apply Steps.reach (.single (.call
      { batch, attempt := attemptOf setup batch, asked := t.calls
        endsAt := Time.wakeUp (Time.deadline t.now (setup.reply t.calls).delay) } idle takes rfl))
    ext1 <;> simp [ledger, isTorn, events, Sending.isOver, free]

theorem callEnded_ledger {call : Call} (busy : s.sending = .calling call)
    (filled : call.batch.lines ≠ []) (ended : CallEnded setup s call t) :
    Steps setup s.ledger t.ledger := by
  cases ended with
  | crashed crash =>
    apply Steps.reach (.tail (.single (.crash busy crash)) (.lose rfl (.refl _)
      (List.sublist_append_right s.batchQueue _) (List.nil_sublist _) le_rfl))
    ext1 <;> simp [ledger, isTorn, events, Sending.isOver, apply_ite Backlog.items, Backlog.close]
  | delivered success =>
    apply Steps.reach (.single (.deliver busy success))
    ext1 <;> simp [ledger, isTorn, events, Sending.isOver, busy]
  | abandoned failure final =>
    apply Steps.reach (.single (.abandon busy failure final))
    ext1 <;> simp [ledger, isTorn, events, Sending.isOver, busy]
  | @retried took error delay added failure wanted left isDelay isAdded =>
    let again : Batch := { call.batch with remaining := call.batch.remaining - 1 }
    have adds := s.backlog.add_added s.now again delay
    rw [← isAdded] at adds
    have torn : s.backlog.closed → s.ledger.torn := by
      intro closed
      simp [ledger, isTorn, closed]
    apply Steps.reach (.head (.retry delay busy failure wanted left)
      (added_ledger adds filled torn rfl))
    ext1 <;> simp [ledger, isTorn, events, Sending.isOver, busy, isAdded]

theorem sending?_ledger (filled : ∀ call, s.sending = .calling call → call.batch.lines ≠ [])
    (taken : s.sending? setup = some t) : Steps setup s.ledger t.ledger := by
  cases action_of_sending? taken with
  | stop idle => exact stopSending_ledger idle
  | @again batch rest _ idle opened retries taken =>
    exact takenUp_ledger (t := { s with retryQueue := rest }) idle (.retry retries) taken
  | @fresh batch rest _ idle opened noRetry parcels taken =>
    have first : s.ledger.conveyor = .batch batch :: (rest ++ s.buffering.handing?.toList) := by
      simp [ledger, parcels]
    exact takenUp_ledger (t := { s with batchQueue := rest }) idle (.fresh noRetry first) taken
  | @barrier rest idle opened noRetry parcels =>
    have first : s.ledger.conveyor = .barrier :: (rest ++ s.buffering.handing?.toList) := by
      simp [ledger, parcels]
    exact .single (.meetBarrier idle noRetry first)
  | endCall busy isOver ended => exact callEnded_ledger busy (filled _ busy) ended

/-! ## The client -/

theorem record_ledger (s : State) (event : Event) (aside : event.IsAside) :
    Steps setup s.ledger (s.record event).ledger :=
  .single (.aside event aside)

/-- Closing the backlog and the writer only says that something may be lost from now on. -/
theorem tear_ledger (upstream : t.ledger.upstream = s.ledger.upstream)
    (conveyor : t.ledger.conveyor = s.ledger.conveyor) (retries : t.retryQueue = s.retryQueue)
    (held : t.backlog.items = s.backlog.items) (sending : t.sending = s.sending)
    (formed : t.buffering.formed = s.buffering.formed) (verdicts : t.verdicts = s.verdicts)
    (torn : t.isTorn) (events : t.events = s.events) : Steps setup s.ledger t.ledger := by
  apply Steps.reach (.single .tear)
  ext1 <;> simp_all [ledger]

theorem finishClose_ledger (s : State) (residual : Nat) :
    Steps setup s.ledger (s.finishClose residual).ledger :=
  .single (.aside (.stopped s.stats residual) trivial)

theorem served_ledger {request : Request} (served : Served setup s request t) :
    Steps setup s.ledger t.ledger := by
  have closed : Steps setup s.ledger { s with backlog := s.backlog.close, closing := true }.ledger :=
    tear_ledger rfl rfl rfl rfl rfl rfl rfl rfl rfl
  cases served with
  | empty => exact .refl
  | refused => exact record_ledger s _ trivial
  | lost => exact record_ledger s _ trivial
  | @accepted chunk filled =>
    apply Steps.reach (.single (.accept chunk filled))
    ext1 <;> simp [ledger, record, isTorn, events]
  | unencodable error =>
    have asides : ∀ event ∈ (if setup.verdict?.isSome then [Event.reported error none 0] else []) ++
        [.unencodable error], event.IsAside := by
      split <;> simp [Event.IsAside]
    apply Steps.reach (Steps.asides asides s.ledger)
    ext1 <;> simp [ledger, isTorn, events]
  | flushClosed => exact .refl
  | flushStopped => exact (releaseAll_ledger s).trans (record_ledger _ _ trivial)
  | flush => exact (releaseAll_ledger s).trans (record_ledger _ _ trivial)
  | close => exact closed
  | closeAgain => exact closed.trans (finishClose_ledger _ _)
  | giveUp =>
    refine tear_ledger rfl rfl rfl ?_ rfl rfl rfl rfl rfl
    unfold giveUp
    dsimp only
    split <;> rfl
  | sleep => exact .refl

theorem endWait_ledger (s : State) (wait : Wait) : Steps setup s.ledger (s.endWait wait).ledger := by
  cases wait with
  | bothLoops residual =>
    unfold endWait
    dsimp only
    split
    · exact (record_ledger { s with wait? := none, joined := true } .crashNoticed trivial).trans
        (finishClose_ledger _ _)
    · exact finishClose_ledger { s with wait? := none, joined := true } residual
  | barrier => exact .refl
  | instant time => exact .refl

theorem client?_ledger (taken : s.client? setup = some t) : Steps setup s.ledger t.ledger := by
  cases action_of_client? taken with
  | endWait waits isOver => exact endWait_ledger s _
  | @serve request rest _ free asked served =>
    exact served_ledger (s := { s with requests := rest }) served

theorem step?_ledger (filled : s.Filled)
    (called : ∀ call, s.sending = .calling call → call.batch.lines ≠ []) {task : Task}
    (taken : s.step? setup task = some t) : Steps setup s.ledger t.ledger := by
  cases task with
  | buffering => exact buffering?_ledger filled taken
  | alarm => exact alarm?_ledger taken
  | sending => exact sending?_ledger called taken
  | client => exact client?_ledger taken

end State

end LineDelivery.Pipeline
