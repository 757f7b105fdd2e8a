import LineDelivery.Proofs.Pipeline.Authors
import LineDelivery.Proofs.Pipeline.Ending
import LineDelivery.Proofs.Pipeline.Load
import LineDelivery.Proofs.Pipeline.Whole

/-!
# The order of delivery

Nothing overtakes anything on the way to the transport. The buffering loop takes chunks as they were
written and cuts them into batches as they come; the sending loop handles fresh batches as they were
cut, and retries as the backlog handed them back. Each statement is an equation: what came out of a
queue, followed by what is still in it, is what went in.
-/

namespace LineDelivery.Pipeline

/-! ## What the events list -/

/-- What a kind of event is about, in the order in which it happened. -/
def listed {α : Type} (pick : Event → Option α) (events : List Event) : List α :=
  (events.filterMap pick).reverse

section

variable {α : Type} {pick : Event → Option α} {newer older : List Event}

@[simp]
theorem listed_nil : listed pick [] = [] := rfl

theorem listed_append : listed pick (newer ++ older) = listed pick older ++ listed pick newer := by
  simp [listed]

@[simp]
theorem listed_cons {event : Event} :
    listed pick (event :: older) = listed pick older ++ (pick event).toList := by
  simp only [listed, List.filterMap_cons]
  cases pick event <;> simp

theorem listed_of_forall (none : ∀ event ∈ newer, pick event = none) :
    listed pick (newer ++ older) = listed pick older := by
  rw [listed_append]
  simp [listed, List.filterMap_eq_nil_iff.mpr none]

/-- A task adds nothing to a list of events that it never writes. -/
theorem State.Writes.listed_eq {task : Task} {s t : State} (writes : Writes task s t)
    (others : ∀ event, task ∈ event.writers → pick event = none) :
    listed pick t.events = listed pick s.events := by
  obtain ⟨block, history, own⟩ := writes
  rw [events_of_history history]
  exact listed_of_forall fun event there ↦ others event (own event there)

end

namespace Event

def gathered? : Event → Option Bytes
  | gathered chunk => some chunk
  | _ => none

def cut? : Event → Option LineBuffer.Cut
  | cut taken => some taken
  | _ => none

def released? : Event → Option Batch
  | backlog (.released batch) => some batch
  | _ => none

/-- The batch that is sent, or dropped because its time is over, at its first attempt. -/
def handledFirst? : Event → Option Batch
  | called batch attempt | expired batch attempt => if attempt = 1 then some batch else none
  | _ => none

/-- The batch that is sent, or dropped because its time is over, at a later attempt. -/
def handledAgain? : Event → Option Batch
  | called batch attempt | expired batch attempt => if attempt = 1 then none else some batch
  | _ => none

end Event

section

variable {setup : Setup} {error : DeliveryError} {batch : Batch} {attempt : Nat}
variable {events : List Event}

theorem listed_reports {α : Type} {pick : Event → Option α}
    (silent : pick (.reported error (some batch) attempt) = none) :
    listed pick (reports setup error batch attempt ++ events) = listed pick events :=
  listed_of_forall (by simp [forall_mem_reports, silent])

@[simp]
theorem listed_handledFirst?_reports :
    listed Event.handledFirst? (reports setup error batch attempt ++ events) =
      listed Event.handledFirst? events :=
  listed_reports rfl

@[simp]
theorem listed_handledAgain?_reports :
    listed Event.handledAgain? (reports setup error batch attempt ++ events) =
      listed Event.handledAgain? events :=
  listed_reports rfl

@[simp]
theorem listed_released?_reports :
    listed Event.released? (reports setup error batch attempt ++ events) =
      listed Event.released? events :=
  listed_reports rfl

end

/-! ## The sending loop -/

namespace Event

variable {event : Event}

theorem IsAside.handledFirst? (aside : event.IsAside) : event.handledFirst? = none := by
  cases event with
  | called batch attempt => exact aside.elim
  | expired batch attempt => exact aside.elim
  | _ => rfl

theorem IsAside.handledAgain? (aside : event.IsAside) : event.handledAgain? = none := by
  cases event with
  | called batch attempt => exact aside.elim
  | expired batch attempt => exact aside.elim
  | _ => rfl

theorem IsAside.released? (aside : event.IsAside) : event.released? = none := by
  cases event with
  | backlog event => cases event <;> first | rfl | exact aside.elim
  | _ => rfl

end Event

theorem State.attemptOf_eq_one_iff {setup : Setup} {batch : Batch} :
    attemptOf setup batch = 1 ↔ setup.isRetry batch = false := by
  have bound : Nat.pow 2 32 - 1 = 4294967295 := rfl
  simp only [attemptOf, bound, Setup.isRetry, decide_eq_false_iff_not]
  omega

namespace Ledger

variable {setup : Setup} {l m : Ledger} {batch : Batch}

/-- Both queues before the sending loop keep their order. -/
structure Queued (l : Ledger) : Prop where
  fresh :
    listed Event.handledFirst? l.events ++ l.conveyor.filterMap Parcel.batch? = formedIn l.events
  again : listed Event.handledAgain? l.events ++ l.retries = listed Event.released? l.events

/-- A retry is handled as the first of the retries, and a fresh batch as the first of the
conveyor. -/
theorem Queued.takes (queued : l.Queued) (sorted : l.Sorted setup) (takes : l.Takes batch m)
    {event : Event}
    (handled : event = .called batch (State.attemptOf setup batch) ∨
      event = .expired batch (State.attemptOf setup batch)) :
    { m with events := event :: m.events }.Queued := by
  obtain ⟨fresh, again⟩ := queued
  cases takes with
  | @retry rest first =>
    have isRetry : setup.isRetry batch := sorted.retries batch (first ▸ List.mem_cons_self)
    have later : State.attemptOf setup batch ≠ 1 := by
      simp [State.attemptOf_eq_one_iff, isRetry]
    rw [first] at again
    rcases handled with rfl | rfl <;> constructor <;>
      simp [Event.handledFirst?, Event.handledAgain?, Event.released?, Event.formed?, later, fresh,
        again]
  | @fresh rest noRetry first =>
    have remaining := sorted.conveyor batch (first ▸ List.mem_cons_self)
    have initial : State.attemptOf setup batch = 1 := by
      simp [State.attemptOf_eq_one_iff, Setup.isRetry, remaining]
    rw [first, List.filterMap_cons] at fresh
    rcases handled with rfl | rfl <;> constructor <;>
      simp_all [Event.handledFirst?, Event.handledAgain?, Event.released?, Event.formed?,
        Parcel.batch?]

theorem Step.queued (step : Step setup l m) (sorted : l.Sorted setup)
    (queued : l.torn = false → l.Queued) (whole : m.torn = false) : m.Queued := by
  have before := queued (step.torn_eq_false whole)
  have ⟨fresh, again⟩ := before
  cases step with
  | aside event aside =>
    constructor
    · simpa [aside.handledFirst?, aside.formed?] using fresh
    · simpa [aside.handledAgain?, aside.released?] using again
  | form cut filled serial remaining =>
    constructor
    · simp [Event.handledFirst?, Event.formed?, Parcel.batch?, ← fresh]
    · simpa [Event.handledAgain?, Event.released?] using again
  | sendBarrier => exact ⟨by simpa [List.filterMap_cons, Parcel.batch?] using fresh, again⟩
  | meetBarrier idle noRetry first =>
    exact ⟨by simpa [first, List.filterMap_cons, Parcel.batch?] using fresh, again⟩
  | expire idle takes =>
    obtain ⟨fresh, again⟩ := before.takes sorted takes (.inr rfl)
    exact ⟨by simpa using fresh, by simpa using again⟩
  | call call idle takes attempt =>
    obtain ⟨fresh, again⟩ := before.takes sorted takes (.inl rfl)
    exact ⟨attempt ▸ fresh, attempt ▸ again⟩
  | release held =>
    constructor
    · simpa [Event.handledFirst?, Event.formed?] using fresh
    · simp [Event.handledAgain?, Event.released?, ← again]
  | crash | tear => simp at whole
  | stop idle torn | lose torn => simp [torn] at whole
  | _ =>
    constructor
    · simpa [Event.handledFirst?, Event.formed?] using fresh
    · simpa [Event.handledAgain?, Event.released?] using again

theorem queued_opening {event : Event} (aside : event.IsAside) : (opening event).Queued := by
  constructor
  · simp [opening, aside.handledFirst?, aside.formed?]
  · simp [opening, aside.handledAgain?, aside.released?]

theorem Queued.steps (queued : l.torn = false → l.Queued) (sorted : l.Sorted setup)
    (steps : Steps setup l m) : m.torn = false → m.Queued := by
  induction steps with
  | refl => exact queued
  | tail steps step ih => exact step.queued (sorted.steps steps) ih

end Ledger

/-! ## The buffering loop -/

def Outgoing.cut? : Outgoing → Option LineBuffer.Cut
  | .cut taken => some taken
  | .barrier => none

namespace State

variable {setup : Setup} {s t : State}

/-- The chunks keep their order up to the batches that are formed of them. -/
structure Lined (s : State) : Prop where
  taken : listed Event.gathered? s.events ++ s.lineQueue = acceptedIn s.events
  buffered : (listed Event.cut? s.events).flatMap LineBuffer.Cut.chunks ++
    s.buffering.buffer.chunks = (listed Event.gathered? s.events).map Line.terminate
  outgoing : (formedIn s.events).map Batch.chunks ++
    (s.buffering.outbox.filterMap Outgoing.cut?).map LineBuffer.Cut.chunks =
      (listed Event.cut? s.events).map LineBuffer.Cut.chunks

/-- What was cut goes into the empty outbox. -/
theorem Lined.cut (lined : s.Lined) (cuts : List LineBuffer.Cut) (taken : List Bytes)
    (outbox : s.buffering.outbox = [])
    (events : t.events = cuts.reverse.map .cut ++ (taken.reverse.map .gathered ++ s.events))
    (queue : taken ++ t.lineQueue = s.lineQueue)
    (kept : cuts.flatMap LineBuffer.Cut.chunks ++ t.buffering.buffer.chunks =
      s.buffering.buffer.chunks ++ taken.map Line.terminate)
    (sent : t.buffering.outbox.filterMap Outgoing.cut? = cuts) : t.Lined := by
  have gathered : listed Event.gathered? t.events = listed Event.gathered? s.events ++ taken := by
    simp [events, listed, List.filterMap_map, Function.comp_def, Event.gathered?]
  have cut : listed Event.cut? t.events = listed Event.cut? s.events ++ cuts := by
    simp [events, listed, List.filterMap_map, Function.comp_def, Event.cut?]
  have accepted : acceptedIn t.events = acceptedIn s.events := by
    simp [events, acceptedIn, List.filterMap_map, Function.comp_def, Event.accepted?]
  have formed : formedIn t.events = formedIn s.events := by
    simp [events, formedIn, List.filterMap_map, Function.comp_def, Event.formed?]
  constructor
  · rw [gathered, accepted, List.append_assoc, queue]
    exact lined.taken
  · rw [gathered, cut, List.flatMap_append, List.append_assoc, kept, ← List.append_assoc,
      lined.buffered, List.map_append]
  · have all := lined.outgoing
    rw [outbox] at all
    simp [formed, cut, sent, ← all]

/-- What was left in the buffer is cut. -/
theorem Lined.flushed (lined : s.Lined) (outbox : s.buffering.outbox = [])
    (events : t.events =
      s.buffering.buffer.flush.1.toList.reverse.map .cut ++ s.events)
    (queue : t.lineQueue = s.lineQueue) (buffer : t.buffering.buffer = s.buffering.buffer.flush.2)
    (sent : t.buffering.outbox.filterMap Outgoing.cut? = s.buffering.buffer.flush.1.toList) :
    t.Lined := by
  refine lined.cut s.buffering.buffer.flush.1.toList [] outbox ?_ queue ?_ sent
  · simpa using events
  · simpa [buffer] using s.buffering.buffer.chunks_flush

/-- The first cut of the outbox becomes a batch. -/
theorem Lined.form (lined : s.Lined) {cut : LineBuffer.Cut} {batch : Batch}
    (outbox : s.buffering.outbox = .cut cut :: t.buffering.outbox)
    (chunks : batch.chunks = cut.chunks) (events : t.events = .formed batch :: s.events)
    (queue : t.lineQueue = s.lineQueue) (buffer : t.buffering.buffer = s.buffering.buffer) :
    t.Lined := by
  have outgoing := lined.outgoing
  rw [outbox] at outgoing
  constructor
  · simpa [events, queue, Event.gathered?, Event.accepted?] using lined.taken
  · simpa [events, buffer, Event.gathered?, Event.cut?] using lined.buffered
  · simpa [events, chunks, Event.formed?, Event.cut?, Outgoing.cut?] using outgoing

theorem Lined.buffering? (lined : s.Lined) (filled : s.Filled)
    (taken : s.buffering? setup = some t) (running : t.buffering.running) : t.Lined := by
  cases action_of_buffering? taken with
  | stop => simp [stopBuffering, record] at running
  | enqueue | restartTimer => exact ⟨lined.taken, lined.buffered, lined.outgoing⟩
  | @beginHandOver next rest opened free outbox =>
    cases next with
    | barrier =>
      have outgoing := lined.outgoing
      rw [outbox] at outgoing
      exact ⟨lined.taken, lined.buffered, outgoing⟩
    | cut cut => exact lined.form outbox rfl rfl rfl rfl
  | @gather chunk rest free started queue =>
    have kept := s.buffering.buffer.chunks_add (filled.lines chunk (by simp [queue]))
    rw [gather_eq]
    refine lined.cut _ [chunk] free.outbox ?_ queue.symm kept ?_
    · simp [events]
    · simp [List.filterMap_map, Function.comp_def, Outgoing.cut?]
  | flushBuffer free =>
    rw [flushBuffer_eq]
    refine lined.flushed free.outbox ?_ rfl rfl ?_
    · simp [events]
    · simp [List.filterMap_map, Function.comp_def, Outgoing.cut?]
  | flushOnRequest free =>
    rw [flushOnRequest, flushBuffer_eq]
    refine lined.flushed free.outbox ?_ rfl rfl ?_
    · simp [events]
    · simp [List.filterMap_map, Function.comp_def, Outgoing.cut?]

/-- The other tasks only let in chunks. -/
theorem Lined.accept (lined : s.Lined) {task : Task} (other : task ≠ .buffering)
    (writes : Writes task s t) (buffering : t.buffering = s.buffering) (more : List Bytes)
    (accepted : acceptedIn t.events = acceptedIn s.events ++ more)
    (queue : t.lineQueue = s.lineQueue ++ more) : t.Lined := by
  have gathered : listed Event.gathered? t.events = listed Event.gathered? s.events :=
    writes.listed_eq fun event own ↦ by cases event <;> simp_all [Event.writers, Event.gathered?]
  have cut : listed Event.cut? t.events = listed Event.cut? s.events :=
    writes.listed_eq fun event own ↦ by cases event <;> simp_all [Event.writers, Event.cut?]
  have formed : formedIn t.events = formedIn s.events :=
    writes.listed_eq fun event own ↦ by cases event <;> simp_all [Event.writers, Event.formed?]
  constructor
  · rw [gathered, queue, accepted, ← List.append_assoc, lined.taken]
  · rw [gathered, cut, buffering]
    exact lined.buffered
  · rw [formed, cut, buffering]
    exact lined.outgoing

/-- The chunks that the client gets into the line queue, it gets in at its end. -/
inductive Accepts (s t : State) : Prop
  | intro (more : List Bytes) (accepted : acceptedIn t.events = acceptedIn s.events ++ more)
      (queue : t.lineQueue = s.lineQueue ++ more)

theorem Accepts.none (block : List Event) (history : t.history = s.stamped block ++ s.history)
    (silent : block.filterMap Event.accepted? = []) (queue : t.lineQueue = s.lineQueue) :
    Accepts s t := by
  refine .intro [] ?_ (by simpa using queue)
  simp [events_of_history history, acceptedIn, silent]

theorem accepts_of_served {request : Request} (served : Served setup s request t) :
    Accepts s t := by
  cases served with
  | @accepted chunk => exact .intro [chunk] (by simp [events, record, Event.accepted?]) rfl
  | refused | lost | closeAgain => exact .none [_] rfl rfl rfl
  | unencodable error =>
    refine .none _ rfl ?_ rfl
    split <;> rfl
  | flushStopped | flush =>
    rw [withBacklog_eq]
    refine .none (_ :: _) rfl ?_ rfl
    rw [List.filterMap_cons_none rfl, List.filterMap_eq_nil_iff]
    intro event there
    obtain ⟨batch, _, rfl⟩ := List.mem_map.mp there
    split <;> rfl
  | _ => exact .none [] rfl rfl rfl

theorem accepts_of_client? (taken : s.client? setup = some t) : Accepts s t := by
  cases action_of_client? taken with
  | @endWait wait =>
    cases wait with
    | bothLoops residual =>
      rw [endWait_bothLoops]
      refine .none _ rfl ?_ rfl
      unfold endEvents
      split <;> rfl
    | _ => exact .none [] rfl rfl rfl
  | @serve request rest _ free asked served =>
    obtain ⟨more, accepted, queue⟩ := accepts_of_served (s := { s with requests := rest }) served
    exact ⟨more, accepted, queue⟩

/-- Only the client's task writes that a chunk was accepted. -/
theorem acceptedIn_of_writes {task : Task} (other : task ≠ .client) (writes : Writes task s t) :
    acceptedIn t.events = acceptedIn s.events :=
  writes.listed_eq fun event own ↦ by cases event <;> simp_all [Event.writers, Event.accepted?]

theorem Lined.of_front (lined : s.buffering.running → s.Lined) {task : Task}
    (other : task ≠ .buffering) (silent : task ≠ .client) (writes : Writes task s t)
    (front : t.front = s.front) (running : t.buffering.running) : t.Lined := by
  have buffering : t.buffering = s.buffering := congrArg Front.buffering front
  have queue : t.lineQueue = s.lineQueue := congrArg Front.lineQueue front
  exact (lined (buffering ▸ running)).accept other writes buffering []
    (by simpa using acceptedIn_of_writes silent writes) (by simpa using queue)

theorem Lined.step? (lined : s.buffering.running → s.Lined) (filled : s.Filled) {task : Task}
    (taken : s.step? setup task = some t) (running : t.buffering.running) : t.Lined := by
  have writes := writes_of_step? taken
  cases task with
  | buffering => exact (lined (running_of_buffering? taken)).buffering? filled taken running
  | alarm => exact .of_front lined (by simp) (by simp) writes (front_of_alarm? taken) running
  | sending => exact .of_front lined (by simp) (by simp) writes (front_of_sending? taken) running
  | client =>
    have buffering := (loops_of_client? taken).1
    obtain ⟨more, accepted, queue⟩ := accepts_of_client? taken
    exact (lined (buffering ▸ running)).accept (by simp) writes buffering more accepted queue

end State

namespace Reachable

variable {setup : Setup} {s : State}

theorem queued (reachable : Reachable setup s) (calm : setup.NeverCrashes)
    (opened : s.closing = false) : s.ledger.Queued :=
  Ledger.Queued.steps (fun _ ↦ Ledger.queued_opening (by trivial)) (Ledger.sorted_opening _)
    reachable.steps (reachable.isTorn_eq_false calm opened)

theorem lined (reachable : Reachable setup s) : s.buffering.running → s.Lined := by
  induction reachable with
  | start started =>
    intro
    rw [(start?_eq_ok started).2]
    constructor <;> rfl
  | move before move ih =>
    cases move with
    | step task taken => exact State.Lined.step? ih before.standing.toFilled taken
    | pass now later => exact fun running ↦ { ih running with }
    | ask requests idle => exact fun running ↦ { ih running with }

/-- In an open writer no chunk, no batch and no retry overtakes another: what the buffering loop
takes is what was written, what it cuts and keeps is what it took, the sending loop first handles
what was cut and not still on its way, and it handles the retries as they were handed back. -/
theorem inOrder (reachable : Reachable setup s) (calm : setup.NeverCrashes)
    (opened : s.closing = false) :
    let taken := listed Event.gathered? s.events
    let cuts := listed Event.cut? s.events
    let onWay := (s.batchQueue ++ s.buffering.handing?.toList).filterMap Parcel.batch?
    let outbox := s.buffering.outbox.filterMap Outgoing.cut?
    taken ++ s.lineQueue = acceptedIn s.events ∧
      cuts.flatMap LineBuffer.Cut.chunks ++ s.buffering.buffer.chunks =
        taken.map Line.terminate ∧
      (listed Event.handledFirst? s.events ++ onWay).map Batch.chunks ++
        outbox.map LineBuffer.Cut.chunks = cuts.map LineBuffer.Cut.chunks ∧
      listed Event.handledAgain? s.events ++ s.retryQueue = listed Event.released? s.events := by
  obtain ⟨_, running, _⟩ := State.isTorn_eq_false.mp (reachable.isTorn_eq_false calm opened)
  have lined := reachable.lined running
  have queued := reachable.queued calm opened
  have fresh : listed Event.handledFirst? s.events ++ _ = formedIn s.events := queued.fresh
  refine ⟨lined.taken, lined.buffered, ?_, queued.again⟩
  rw [← lined.outgoing, ← fresh]
  rfl

end Reachable

theorem Setup.squeezed_neverCrashes : squeezed.NeverCrashes := by
  intro asked
  simp [squeezed]

/-- Two batches were tried and one of them again, all in order. -/
theorem inOrder_overfull :
    let first := listed Event.handledFirst? State.overfull.events
    let again := listed Event.handledAgain? State.overfull.events
    first.map Batch.chunks = [[[65, 10]], [[66, 10]]] ∧ again.map Batch.chunks = [[[65, 10]]] ∧
      (listed Event.cut? State.overfull.events).map LineBuffer.Cut.chunks =
        first.map Batch.chunks ∧
      again = listed Event.released? State.overfull.events := by
  obtain ⟨_, _, fresh, again⟩ := Reachable.overfull.inOrder Setup.squeezed_neverCrashes rfl
  refine ⟨by decide +kernel, by decide +kernel, ?_, ?_⟩
  · rw [← fresh]
    decide +kernel
  · rw [← again]
    decide +kernel

end LineDelivery.Pipeline
