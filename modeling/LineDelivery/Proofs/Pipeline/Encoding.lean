import LineDelivery.Proofs.Pipeline.Alike
import LineDelivery.Proofs.Pipeline.Delivery
import LineDelivery.Proofs.Pipeline.Shutdown

/-!
# Records that cannot be encoded

A record that cannot be encoded is counted and reported, once and in its turn. All else is as if the
record had not been there: what is queued, what the transport is given and when, and what becomes of
it.
-/

namespace LineDelivery.Pipeline

namespace Request

/-- Why a record could not be encoded. -/
def fault? : Request → Option DeliveryError
  | unencodable error => some error
  | _ => none

/-- A line, or a record that could not be encoded. -/
def IsWrite : Request → Prop
  | line _ | unencodable _ => True
  | _ => False

end Request

namespace Event

def unencodable? : Event → Option DeliveryError
  | unencodable error => some error
  | _ => none

/-- A call of the failure handler with no lines and no expiry, and the attempt it was told of. -/
def reportedAlone? : Event → Option (DeliveryError × Nat)
  | reported error none attempt => some (error, attempt)
  | _ => none

theorem reportedAlone?_eq_none {event : Event} {task : Task} (own : task ∈ event.writers)
    (inner : task = .buffering ∨ task = .alarm) : event.reportedAlone? = none := by
  cases event with
  | reported error batch? attempt =>
    cases batch? <;> cases attempt <;> simp_all [writers, reportedAlone?]
  | _ => rfl

end Event

variable {setup : Setup} {s t u : State}

/-! ## One after the other -/

theorem State.requests_of_served {request : Request} (served : Served setup s request t) :
    t.requests = s.requests := by
  cases served <;> simp [record, finishClose, giveUp, withBacklog_eq]

theorem State.requests_suffix_of_step? {task : Task} (taken : s.step? setup task = some t) :
    t.requests <:+ s.requests := by
  by_cases client : task = .client
  · subst client
    cases action_of_client? taken with
    | @endWait wait => exact (endWait_requests s wait).1 ▸ List.suffix_rfl
    | serve free asked served =>
      rw [requests_of_served served, asked]
      exact List.suffix_cons _ _
  · exact requests_of_step? client taken ▸ List.suffix_rfl

/-- A call meets its requests from the front. -/
theorem Calls.requests_suffix (call : Calls setup s [] t) : t.requests <:+ s.requests :=
  call.keeps (fun t ↦ t.requests <:+ s.requests) List.suffix_rfl
    (fun _ _ _ suffix taken ↦ (State.requests_suffix_of_step? taken).trans suffix)
    fun _ _ suffix ↦ suffix

/-! ## What is noted -/

@[simp]
theorem listed_reportedAlone?_reports {error : DeliveryError} {batch : Batch} {attempt : Nat}
    {events : List Event} :
    listed Event.reportedAlone? (reports setup error batch attempt ++ events) =
      listed Event.reportedAlone? events :=
  listed_reports rfl

/-- The faults that were noted between two states, each counted and reported in its turn. -/
structure Notes (setup : Setup) (s t : State) (noted : List DeliveryError) : Prop where
  inOrder : noted ++ t.requests.filterMap Request.fault? = s.requests.filterMap Request.fault?
  counted : t.stats.encodingFailures = s.stats.encodingFailures + noted.length
  recorded : listed Event.unencodable? t.events = listed Event.unencodable? s.events ++ noted
  reported : listed Event.reportedAlone? t.events =
    listed Event.reportedAlone? s.events ++
      if setup.verdict?.isSome then noted.map (·, 0) else []

namespace Notes

theorem refl (setup : Setup) (s : State) : Notes setup s s [] where
  inOrder := rfl
  counted := rfl
  recorded := (List.append_nil _).symm
  reported := by simp

theorem trans {first second : List DeliveryError} (before : Notes setup s t first)
    (after : Notes setup t u second) : Notes setup s u (first ++ second) where
  inOrder := by rw [List.append_assoc, after.inOrder, before.inOrder]
  counted := by rw [after.counted, before.counted, List.length_append, Nat.add_assoc]
  recorded := by rw [after.recorded, before.recorded, List.append_assoc]
  reported := by
    rw [after.reported, before.reported, List.append_assoc]
    split <;> simp

end Notes

namespace State

theorem reportedAlone_of_sending? (taken : s.sending? setup = some t) :
    listed Event.reportedAlone? t.events = listed Event.reportedAlone? s.events := by
  cases action_of_sending? taken with
  | stop => simp [stopSending, record, events, Event.reportedAlone?]
  | again idle opened retries taken => cases taken <;> simp [events, Event.reportedAlone?]
  | fresh idle opened noRetry parcels taken => cases taken <;> simp [events, Event.reportedAlone?]
  | barrier => rfl
  | endCall busy isOver ended =>
    cases ended with
    | @retried took error delay added =>
      have silent : ∀ event ∈ added.2.reverse.map Event.backlog, event.reportedAlone? = none := by
        simp [Event.reportedAlone?]
      rw [events_of_history rfl, List.append_assoc, listed_of_forall silent]
      simp [Event.reportedAlone?]
    | _ => simp [events, Event.reportedAlone?]

/-- Only the client notes faults. -/
theorem notes_of_step? {task : Task} (other : task ≠ .client) (taken : s.step? setup task = some t) :
    Notes setup s t [] := by
  have writes := writes_of_step? taken
  refine ⟨?_, (clock_of_step? other taken).2, ?_, ?_⟩
  · rw [requests_of_step? other taken]
    rfl
  · rw [List.append_nil]
    refine writes.listed_eq fun event own ↦ ?_
    cases event <;> simp_all [Event.writers, Event.unencodable?]
  · rw [List.map_nil, ite_self, List.append_nil]
    cases task with
    | sending => exact reportedAlone_of_sending? taken
    | client => exact absurd rfl other
    | buffering => exact writes.listed_eq fun _ own ↦ Event.reportedAlone?_eq_none own (.inl rfl)
    | alarm => exact writes.listed_eq fun _ own ↦ Event.reportedAlone?_eq_none own (.inr rfl)

/-- Where nothing about a fault is written, none was noted. -/
theorem notes_of_silent (block : List Event) (history : t.history = s.stamped block ++ s.history)
    (silent : ∀ event ∈ block, event.unencodable? = none ∧ event.reportedAlone? = none)
    (counted : t.stats.encodingFailures = s.stats.encodingFailures)
    (requests : t.requests.filterMap Request.fault? = s.requests.filterMap Request.fault?) :
    Notes setup s t [] := by
  have events := events_of_history history
  refine ⟨requests, counted, ?_, ?_⟩
  · rw [events, listed_of_forall fun event there ↦ (silent event there).1, List.append_nil]
  · rw [events, listed_of_forall fun event there ↦ (silent event there).2]
    simp

theorem notes_of_client? (taken : s.client? setup = some t) : ∃ noted, Notes setup s t noted := by
  cases action_of_client? taken with
  | @endWait wait =>
    cases wait with
    | bothLoops residual =>
      rw [endWait_bothLoops]
      refine ⟨[], notes_of_silent _ rfl ?_ rfl rfl⟩
      unfold endEvents
      split <;> simp [Event.unencodable?, Event.reportedAlone?]
    | _ => exact ⟨[], notes_of_silent [] rfl nofun rfl rfl⟩
  | @serve request rest _ free asked served =>
    cases served with
    | unencodable error =>
      refine ⟨[error], by simp [asked, Request.fault?], rfl, ?_, ?_⟩
      · cases registered : setup.verdict?.isSome <;>
          simp [events, Event.unencodable?]
      · cases registered : setup.verdict?.isSome <;>
          simp [events, Event.reportedAlone?]
    | flushStopped | flush =>
      rw [withBacklog_eq]
      refine ⟨[], notes_of_silent (_ :: _) rfl ?_ rfl (by rw [asked]; rfl)⟩
      simp [Event.unencodable?, Event.reportedAlone?]
    | refused | lost | accepted | closeAgain =>
      refine ⟨[], notes_of_silent [_] rfl ?_ rfl (by rw [asked]; rfl)⟩
      simp [Event.unencodable?, Event.reportedAlone?]
    | _ => exact ⟨[], notes_of_silent [] rfl nofun rfl (by rw [asked]; rfl)⟩

end State

/-- Each fault of a call is noted once, in its turn. -/
theorem Calls.notes (call : Calls setup s [] t) : ∃ noted, Notes setup s t noted := by
  refine call.keeps (fun t ↦ ∃ noted, Notes setup s t noted) ⟨[], .refl setup s⟩ ?_ ?_
  · rintro t u task ⟨noted, before⟩ taken
    obtain ⟨more, after⟩ : ∃ more, Notes setup t u more := by
      by_cases client : task = .client
      · subst client
        exact State.notes_of_client? taken
      · exact ⟨[], State.notes_of_step? client taken⟩
    exact ⟨_, before.trans after⟩
  · rintro t now ⟨noted, before⟩
    exact ⟨noted, { before with }⟩

/-! ## What is queued -/

/-- The chunks that went into the line queue between two states, in order, and those that came too
late, since the buffering loop had stopped. -/
structure Queues (s t : State) (queued late : List Bytes) : Prop where
  inOrder : queued ++ late ++ t.toWrite = s.toWrite
  accepted : acceptedIn t.events = acceptedIn s.events ++ queued
  lost : t.events.count .lost = s.events.count .lost + late.length
  stopped : late ≠ [] → t.buffering.running = false

namespace State

/-- An open writer in a call that only writes. -/
structure Writing (s : State) : Prop where
  opened : s.closing = false
  free : s.wait? = none
  writes : ∀ request ∈ s.requests, request.IsWrite

theorem Writing.step? (writing : s.Writing) {task : Task} (other : task ≠ .client)
    (taken : s.step? setup task = some t) : t.Writing where
  opened := by
    cases task with
    | buffering => exact (congrArg Rear.closing (rear_of_buffering? taken)).trans writing.opened
    | alarm => exact (congrArg Front.closing (front_of_alarm? taken)).trans writing.opened
    | sending => exact (congrArg Front.closing (front_of_sending? taken)).trans writing.opened
    | client => exact absurd rfl other
  free := (clientSide_of_step? other taken).1.trans writing.free
  writes := requests_of_step? other taken ▸ writing.writes

/-- A buffering loop that has stopped does not go on. -/
theorem running_of_step? {task : Task} (stopped : s.buffering.running = false)
    (taken : s.step? setup task = some t) : t.buffering.running = false := by
  cases task with
  | buffering => simp [running_of_buffering? taken] at stopped
  | alarm =>
    have buffering : t.buffering = s.buffering := congrArg Front.buffering (front_of_alarm? taken)
    rwa [buffering]
  | sending =>
    have buffering : t.buffering = s.buffering := congrArg Front.buffering (front_of_sending? taken)
    rwa [buffering]
  | client => rwa [(loops_of_client? taken).1]

end State

namespace Queues

variable {queued late : List Bytes}

theorem step? (queues : Queues s t queued late) {task : Task} (other : task ≠ .client)
    (taken : t.step? setup task = some u) : Queues s u queued late where
  inOrder := by
    rw [State.toWrite, State.requests_of_step? other taken]
    exact queues.inOrder
  accepted := (State.acceptedIn_of_writes other (State.writes_of_step? taken)).trans queues.accepted
  lost := by
    refine Eq.trans ?_ queues.lost
    refine (State.writes_of_step? taken).countP_eq fun event own ↦ ?_
    cases event <;> simp_all [Event.writers]
  stopped some := State.running_of_step? (queues.stopped some) taken

theorem client? (queues : Queues s t queued late) (writing : t.Writing)
    (taken : t.client? setup = some u) :
    u.Writing ∧ ∃ queued late, Queues s u queued late := by
  cases State.action_of_client? taken with
  | endWait waits => simp [writing.free] at waits
  | @serve request rest _ free asked served =>
    obtain ⟨isWrite, writes⟩ := List.forall_mem_cons.mp (asked ▸ writing.writes)
    have inOrder := queues.inOrder
    rw [State.toWrite, asked] at inOrder
    cases served with
    | empty =>
      exact ⟨⟨writing.opened, free, writes⟩, queued, late, { queues with inOrder }⟩
    | refused filled closing => simp [writing.opened] at closing
    | @lost chunk filled opened stopped =>
      have events : ({ t with requests := rest }.record .lost).events = .lost :: t.events := rfl
      refine ⟨⟨writing.opened, free, writes⟩, queued, late ++ [chunk], ?_, ?_, ?_, fun _ ↦ stopped⟩
      · rw [← inOrder]
        simp [State.toWrite, State.record, Request.chunk?, filled]
      · simpa [events, Event.accepted?] using queues.accepted
      · simp [events, queues.lost, Nat.add_assoc]
    | @accepted chunk filled opened running =>
      obtain rfl : late = [] := by
        by_contra some
        simp [queues.stopped some] at running
      refine ⟨⟨writing.opened, free, writes⟩, queued ++ [chunk], [], ?_, ?_, ?_, by simp⟩
      · rw [← inOrder]
        simp [State.toWrite, State.record, Request.chunk?, filled]
      · have accepted := queues.accepted
        simp only [State.events] at accepted
        simp [State.events, State.record, Event.accepted?, accepted]
      · simpa [State.events, State.record] using queues.lost
    | unencodable error =>
      refine ⟨⟨writing.opened, free, writes⟩, queued, late, inOrder, ?_, ?_, queues.stopped⟩
      · rw [State.events_of_history rfl]
        split <;> simpa [State.events, Event.accepted?] using queues.accepted
      · rw [State.events_of_history rfl]
        split <;> simpa [State.events] using queues.lost
    | _ => exact isWrite.elim

end Queues

/-- All chunks of a call that only writes are queued in order, or lost from some chunk on. -/
theorem Calls.queues (call : Calls setup s [] t) (writing : s.Writing) :
    t.Writing ∧ ∃ queued late, Queues s t queued late := by
  have none : Queues s s [] [] := ⟨rfl, (List.append_nil _).symm, rfl, nofun⟩
  refine call.keeps (fun t ↦ t.Writing ∧ ∃ queued late, Queues s t queued late)
    ⟨writing, [], [], none⟩ ?_ ?_
  · rintro t u task ⟨writing, queued, late, queues⟩ taken
    by_cases client : task = .client
    · subst client
      exact queues.client? writing taken
    · exact ⟨writing.step? client taken, queued, late, queues.step? client taken⟩
  · rintro t now ⟨writing, queued, late, queues⟩
    exact ⟨{ writing with }, queued, late, { queues with }⟩

/-! ## Whole calls -/

/-- A writer at the beginning of a call with some records. -/
def State.writing (s : State) (records : List Encoded) : State :=
  { s with requests := (ClientCall.writeAll records).requests, closed? := none }

/-- The records without those that could not be encoded. -/
def encodable (records : List Encoded) : List Encoded :=
  records.filter fun record ↦ record.fault?.isNone

theorem requests_append (first second : List Encoded) :
    (ClientCall.writeAll (first ++ second)).requests =
      (ClientCall.writeAll first).requests ++ (ClientCall.writeAll second).requests :=
  List.map_append

theorem requests_encodable (records : List Encoded) :
    (ClientCall.writeAll (encodable records)).requests =
      (ClientCall.writeAll records).requests.filter fun request ↦ !request.isFault := by
  simp only [ClientCall.requests, encodable]
  induction records with
  | nil => rfl
  | cons record records ih =>
    cases fault : record.fault? <;>
      simp [fault, Request.ofEncoded, Request.isFault, ih]

theorem faultless_writing (s : State) (records : List Encoded) :
    (s.writing (encodable records)).faultless = (s.writing records).faultless := by
  simp only [State.writing, State.faultless, requests_encodable, List.filter_filter, Bool.and_self]

theorem filterMap_fault? (records : List Encoded) :
    (ClientCall.writeAll records).requests.filterMap Request.fault? =
      records.filterMap Encoded.fault? := by
  simp only [ClientCall.requests, List.filterMap_map]
  congr 1
  funext record
  cases fault : record.fault? <;> simp [Request.ofEncoded, Request.fault?, fault]

theorem isWrite_of_mem (records : List Encoded) :
    ∀ request ∈ (ClientCall.writeAll records).requests, request.IsWrite := by
  simp only [ClientCall.requests, List.forall_mem_map]
  intro record _
  unfold Request.ofEncoded
  split <;> trivial

theorem State.client?_of_registered (s : State) (registered : setup.verdict?.isSome)
    (verdict : Nat → DeliveryError → Bool) :
    s.client? { setup with verdict? := some verdict } = s.client? setup := by
  unfold client?
  split
  · rfl
  · rfl
  · next request rest _ _ =>
    cases request with
    | unencodable error => simp [serve?, reportUnencodable, registered]
    | _ => rfl

/-- What has happened between two states because of these records. -/
structure DealtWith (setup : Setup) (s t : State) (records : List Encoded) : Prop where
  counted : t.stats.encodingFailures =
    s.stats.encodingFailures + (records.filterMap Encoded.fault?).length
  recorded : listed Event.unencodable? t.events =
    listed Event.unencodable? s.events ++ records.filterMap Encoded.fault?
  /-- The handler is called once for each faulty record, with no lines, and told of no attempt. -/
  reported : listed Event.reportedAlone? t.events =
    listed Event.reportedAlone? s.events ++
      if setup.verdict?.isSome then (records.filterMap Encoded.fault?).map (·, 0) else []
  /-- The outputs of the others are queued, all of them unless the buffering loop has stopped. -/
  queued : ∃ queued late, queued ++ late = writtenBy [.writeAll records] ∧
    (late ≠ [] → t.buffering.running = false) ∧
    acceptedIn t.events = acceptedIn s.events ++ queued ∧
    t.events.count .lost = s.events.count .lost + late.length

/-- What a call comes to with records of which some could not be encoded. -/
structure SkipsFaults (setup : Setup) (s : State) (records : List Encoded) : Prop where
  /-- Whatever comes of this call, and of any calls after it, can come of the call without the
  faulty records, and the same calls after it. -/
  sound : ∀ later t, Calls setup (s.writing records) later t →
    ∃ u, Calls setup (s.writing (encodable records)) later u ∧
      u.faultless = t.faultless ∧ u.sent = t.sent
  /-- Whatever can come of the call without the faulty records can come of this call. -/
  complete : ∀ later u, Calls setup (s.writing (encodable records)) later u →
    ∃ t, Calls setup (s.writing records) later t ∧ t.faultless = u.faultless ∧ t.sent = u.sent
  /-- The scheduler makes the same of both calls. -/
  scheduled : ∀ pauses,
    (s.perform? setup pauses (ClientCall.writeAll records).requests).map State.faultless =
      (s.perform? setup pauses (ClientCall.writeAll (encodable records)).requests).map
        State.faultless
  /-- The records are dealt with one after the other. -/
  inTurn : ∀ t, Calls setup (s.writing records) [] t →
    ∃ dealt left, dealt ++ left = records ∧ t.requests = (ClientCall.writeAll left).requests ∧
      DealtWith setup s t dealt
  /-- The answer of the handler is not looked at. -/
  unheeded : ∀ (t : State) verdict, setup.verdict?.isSome →
    t.client? { setup with verdict? := some verdict } = t.client? setup

/-- What has been noted and queued so far is what the records dealt with so far came to. -/
theorem Calls.dealtWith {records : List Encoded} (call : Calls setup (s.writing records) [] t)
    (free : s.wait? = none) (opened : s.closing = false) :
    ∃ dealt left, dealt ++ left = records ∧ t.requests = (ClientCall.writeAll left).requests ∧
      DealtWith setup s t dealt := by
  obtain ⟨front, split⟩ := call.requests_suffix
  obtain ⟨dealt, left, rfl, rfl, ahead⟩ := List.map_eq_append_iff.mp split.symm
  have ahead : t.requests = (ClientCall.writeAll left).requests := ahead.symm
  obtain ⟨noted, notes⟩ := call.notes
  have faults : noted = dealt.filterMap Encoded.fault? := by
    have inOrder := notes.inOrder.trans (filterMap_fault? _)
    rw [ahead, filterMap_fault?, List.filterMap_append] at inOrder
    exact List.append_cancel_right inOrder
  have writing : (s.writing (dealt ++ left)).Writing := ⟨opened, free, isWrite_of_mem _⟩
  obtain ⟨_, queued, late, queues⟩ := call.queues writing
  have outputs : queued ++ late = writtenBy [.writeAll dealt] := by
    have inOrder : queued ++ late ++ t.toWrite =
        (ClientCall.writeAll (dealt ++ left)).requests.filterMap Request.chunk? := queues.inOrder
    rw [State.toWrite, ahead, requests_append, List.filterMap_append] at inOrder
    rw [writtenBy_eq, List.flatMap_singleton]
    exact List.append_cancel_right inOrder
  refine ⟨dealt, left, rfl, ahead, faults ▸ notes.counted, faults ▸ notes.recorded,
    faults ▸ notes.reported, queued, late, outputs, queues.stopped, queues.accepted, queues.lost⟩

/-- Of records as any encoder left them, with whatever output, those that could not be encoded affect
nothing but their own counts and reports. -/
theorem Reachable.skipsFaults (reachable : Reachable setup s) (idle : s.clientIdle)
    (opened : s.closing = false) (records : List Encoded) : SkipsFaults setup s records where
  sound later t calls := by
    obtain ⟨u, others, alike⟩ := calls.alike (faultless_writing s records).symm
    refine ⟨u, others, alike.symm, ?_⟩
    rw [← u.sent_faultless, ← alike, t.sent_faultless]
  complete later u calls := by
    obtain ⟨t, others, alike⟩ := calls.alike (faultless_writing s records)
    refine ⟨t, others, alike.symm, ?_⟩
    rw [← t.sent_faultless, ← alike, u.sent_faultless]
  scheduled pauses := by
    rw [reachable.faultless_perform? idle, reachable.faultless_perform? idle, requests_encodable,
      List.filter_filter]
    simp only [Bool.and_self]
  inTurn t call := call.dealtWith (State.clientIdle_iff.mp idle).2 opened
  unheeded t verdict registered := t.client?_of_registered registered verdict

/-- The transport that refuses the first batch and takes a second for each of the others, with a
handler for what fails. -/
def Setup.reluctant : Setup :=
  { Setup.hesitant with verdict? := some fun _ _ ↦ true }

/-- A refused batch waits for its retry. -/
def State.postponed : State :=
  { start .reluctant with requests := [.line [64]] }.settle .reluctant

theorem Reachable.postponed : Reachable .reluctant State.postponed :=
  (Reachable.start rfl).runs (State.settle_ask_runs _ rfl)

/-- The fifth line finds the queues full. One fault is noted while the transport is busy, and one
after the client had to wait. -/
theorem skipsFaults_postponed :
    let records : List Encoded :=
      [⟨[65], none⟩, ⟨[66, 10, 66], some (.encoding "null record")⟩, ⟨[67], none⟩, ⟨[68], none⟩,
        ⟨[69], none⟩, ⟨[70], none⟩, ⟨[71], some (.encoding "bad tag")⟩]
    State.postponed.clientIdle ∧ State.postponed.closing = false ∧
      State.postponed.backlog.items.length = 1 ∧
      ∃ t u, State.postponed.perform? .reluctant 1 (ClientCall.writeAll records).requests = some t ∧
        State.postponed.perform? .reluctant 1 (ClientCall.writeAll (encodable records)).requests =
          some u ∧
        t.now = 1000000000 ∧ t.sent = [(0, [64, 10]), (0, [65, 10]), (1000000000, [67, 10])] ∧
        u.faultless = t.faultless ∧ u.sent = t.sent ∧ t.stats.encodingFailures = 2 ∧
        listed Event.reportedAlone? t.events =
          [(.encoding "null record", 0), (.encoding "bad tag", 0)] := by
  intro records
  have idle : State.postponed.clientIdle := by decide +kernel
  have opened : State.postponed.closing = false := by decide +kernel
  have skips := Reachable.postponed.skipsFaults idle opened records
  have outcome : (State.postponed.perform? .reluctant 1
      (ClientCall.writeAll records).requests).map (fun t ↦ (t.clientIdle, t.now, t.sent)) =
        some (true, 1000000000, [(0, [64, 10]), (0, [65, 10]), (1000000000, [67, 10])]) := by
    decide +kernel
  obtain ⟨t, performed, seen⟩ := Option.map_eq_some_iff.mp outcome
  obtain ⟨done, now, sent⟩ : t.clientIdle ∧ t.now = _ ∧ t.sent = _ := by simpa using seen
  have both := skips.scheduled 1
  rw [performed] at both
  obtain ⟨u, others, same⟩ := Option.map_eq_some_iff.mp both.symm
  obtain ⟨dealt, left, split, requests, dealtWith⟩ := skips.inTurn t (.perform? performed)
  obtain rfl : left = [] := by
    rw [(State.clientIdle_iff.mp done).1] at requests
    exact List.map_eq_nil_iff.mp requests.symm
  rw [List.append_nil] at split
  subst split
  refine ⟨idle, opened, by decide +kernel, t, u, performed, others, now, sent, same, ?_,
    dealtWith.counted, dealtWith.reported⟩
  rw [← u.sent_faultless, same, t.sent_faultless]

end LineDelivery.Pipeline
