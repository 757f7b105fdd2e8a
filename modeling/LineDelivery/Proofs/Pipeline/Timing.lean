import LineDelivery.Proofs.Pipeline.Lifetimes

/-!
# The times of a batch's calls

A batch has its expiry from the moment it is formed, and each of its calls begins before that. A
failed call puts the next one off until the delay of the backoff is over, unless a flush lets the
retries go earlier. A retry that comes up when the time of its batch is over is reported and nothing
more.

The backlog cuts the delay at the expiry and the sending loop compares with the expiry, so the two
are followed together: `notBefore` is what the history says of the delays, and `Punctual` says that
nothing before the sending loop is ahead of it.
-/

namespace LineDelivery.Pipeline

/-! ## What the history says of the next call -/

/-- The instant before which a batch is not sent again: each retry puts it off until its delay is
over, or until the batch expires, and a flush lets all retries go. -/
def notBefore (batch : Batch) : List (Nat × Event) → Nat
  | [] => 0
  | (now, event) :: older =>
    match event with
    | .flushing _ => 0
    | .retrying tried _ _ delay =>
      if tried.serial = batch.serial then
        max (min (Time.deadline now delay) batch.expires) (notBefore batch older)
      else notBefore batch older
    | _ => notBefore batch older

namespace Event

/-- Neither a flush nor a retry of this batch. -/
def Spares (batch : Batch) : Event → Prop
  | flushing _ => False
  | retrying tried _ _ _ => tried.serial ≠ batch.serial
  | _ => True

/-- An event of which the times of calls say nothing. -/
def IsTimeless : Event → Prop
  | formed _ | called _ _ | expired _ _ | retrying _ _ _ _ | flushing _ => False
  | _ => True

theorem IsTimeless.spares {event : Event} (timeless : event.IsTimeless) (batch : Batch) :
    event.Spares batch := by
  cases event <;> trivial

end Event

section

variable {batch : Batch} {history : List (Nat × Event)}

theorem notBefore_le_expires : notBefore batch history ≤ batch.expires := by
  induction history with
  | nil => exact Nat.zero_le _
  | cons entry older ih =>
    obtain ⟨now, event⟩ := entry
    cases event with
    | flushing released => exact Nat.zero_le _
    | retrying tried attempt error delay =>
      simp only [notBefore]
      split
      · exact max_le (min_le_right _ _) ih
      · exact ih
    | _ => exact ih

/-- Nothing but the number and the expiry of the batch counts. -/
theorem notBefore_congr {other : Batch} (serial : batch.serial = other.serial)
    (expires : batch.expires = other.expires) :
    notBefore batch history = notBefore other history := by
  induction history with
  | nil => rfl
  | cons entry older ih =>
    obtain ⟨now, event⟩ := entry
    cases event <;> simp only [notBefore, serial, expires, ih]

theorem notBefore_cons_of_spares {now : Nat} {event : Event} (spared : event.Spares batch) :
    notBefore batch ((now, event) :: history) = notBefore batch history := by
  cases event with
  | flushing released => exact spared.elim
  | retrying tried attempt error delay => exact if_neg spared
  | _ => rfl

theorem notBefore_stamped (s : State) {block : List Event}
    (spared : ∀ event ∈ block, event.Spares batch) :
    notBefore batch (s.stamped block ++ history) = notBefore batch history := by
  induction block with
  | nil => rfl
  | cons event block ih =>
    obtain ⟨first, rest⟩ := List.forall_mem_cons.mp spared
    exact (notBefore_cons_of_spares first).trans (ih rest)

theorem notBefore_eq_zero (unnamed : ∀ entry ∈ history, ¬ entry.2.Names batch) :
    notBefore batch history = 0 := by
  induction history with
  | nil => rfl
  | cons entry older ih =>
    obtain ⟨now, event⟩ := entry
    obtain ⟨first, rest⟩ := List.forall_mem_cons.mp unnamed
    cases event with
    | flushing released => rfl
    | retrying tried attempt error delay =>
      have other : tried.serial ≠ batch.serial := fun same ↦ first ⟨tried, rfl, same⟩
      exact (if_neg other).trans (ih rest)
    | _ => exact ih rest

/-- A retry of the batch puts it off, whatever else spares it. -/
theorem notBefore_retrying (s : State) {tried : Batch} {attempt delay : Nat} {error : DeliveryError}
    {newer block : List Event} (same : tried.serial = batch.serial)
    (newerSpared : ∀ event ∈ newer, event.Spares batch)
    (blockSpared : ∀ event ∈ block, event.Spares batch) :
    notBefore batch
        (s.stamped (newer ++ .retrying tried attempt error delay :: block) ++ history) =
      max (min (Time.deadline s.now delay) batch.expires) (notBefore batch history) := by
  rw [State.stamped_append, List.append_assoc, notBefore_stamped s newerSpared, State.stamped_cons,
    List.cons_append, notBefore, if_pos same, notBefore_stamped s blockSpared]

/-- A retry counts until the next flush. -/
theorem le_notBefore {tried : Batch} {now attempt delay : Nat} {error : DeliveryError}
    {newer : List (Nat × Event)} (same : tried.serial = batch.serial)
    (held : ∀ entry ∈ newer, ∀ released, entry.2 ≠ .flushing released) :
    min (Time.deadline now delay) batch.expires ≤
      notBefore batch (newer ++ (now, .retrying tried attempt error delay) :: history) := by
  induction newer with
  | nil =>
    rw [List.nil_append, notBefore, if_pos same]
    exact le_max_left _ _
  | cons entry newer ih =>
    obtain ⟨later, event⟩ := entry
    obtain ⟨first, rest⟩ := List.forall_mem_cons.mp held
    cases event with
    | flushing released => exact absurd rfl (first released)
    | retrying other attempt error delay =>
      simp only [List.cons_append, notBefore]
      split
      · exact (ih rest).trans (le_max_right _ _)
      · exact ih rest
    | _ => exact ih rest

end

/-! ## Events in time -/

/-- What the instant of an event says, given what happened before. -/
def InTime (setup : Setup) (now : Nat) (older : List (Nat × Event)) : Event → Prop
  | .formed batch => batch.expires = Time.deadline now setup.maxRetryTime
  | .called batch _ => now < batch.expires ∧ notBefore batch older ≤ now
  | .expired batch _ => batch.expires ≤ now
  | .retrying batch attempt error delay =>
    ∃ oldest, older = (now, .delayed error attempt delay) ::
      ((reports setup error batch attempt).map fun event ↦ (now, event)) ++
        (now, .answered batch attempt (some error)) :: oldest
  | _ => True

/-- Every event is in time, given those before it. -/
def Timed (setup : Setup) : List (Nat × Event) → Prop
  | [] => True
  | (now, event) :: older => InTime setup now older event ∧ Timed setup older

section

variable {setup : Setup} {history older : List (Nat × Event)}

theorem Event.IsTimeless.inTime {event : Event} (timeless : event.IsTimeless) (now : Nat) :
    InTime setup now older event := by
  cases event <;> trivial

theorem Timed.cons {now : Nat} {event : Event} (timed : Timed setup older)
    (inTime : InTime setup now older event) : Timed setup ((now, event) :: older) :=
  ⟨inTime, timed⟩

theorem Timed.stamped (timed : Timed setup older) (s : State) {block : List Event}
    (timeless : ∀ event ∈ block, event.IsTimeless) : Timed setup (s.stamped block ++ older) := by
  induction block with
  | nil => exact timed
  | cons event block ih =>
    obtain ⟨first, rest⟩ := List.forall_mem_cons.mp timeless
    exact (ih rest).cons (first.inTime s.now)

theorem Timed.inTime (timed : Timed setup history) {now : Nat} {event : Event}
    (there : (now, event) :: older <:+ history) : InTime setup now older event := by
  induction history with
  | nil => simp at there
  | cons entry history ih =>
    rcases List.suffix_cons_iff.mp there with whole | behind
    · obtain ⟨rfl, rfl⟩ := List.cons.inj whole
      exact timed.1
    · exact ih timed.2 behind

end

namespace State

variable {setup : Setup} {s t : State}

/-- The batches that are before the sending loop or in its hand. -/
def ready (s : State) : List Batch :=
  (s.batchQueue ++ s.buffering.handing?.toList).filterMap Parcel.batch? ++ s.retryQueue ++
    s.sending.batch?.toList

/-- No batch is ready before its time, and no event came out of time. -/
structure Punctual (setup : Setup) (s : State) : Prop where
  ready : ∀ batch ∈ s.ready, notBefore batch s.history ≤ s.now
  backlog : ∀ item ∈ s.backlog.items, notBefore item.batch s.history ≤ item.retryTime
  timed : Timed setup s.history

/-- New events that put off none of the batches at hand. -/
theorem Punctual.spared (punctual : s.Punctual setup) (block : List Event)
    (history : t.history = s.stamped block ++ s.history) (timed : Timed setup t.history)
    (ready : ∀ batch ∈ t.ready, notBefore batch s.history ≤ t.now ∧
      ∀ event ∈ block, event.Spares batch)
    (backlog : ∀ item ∈ t.backlog.items, item ∈ s.backlog.items ∧
      ∀ event ∈ block, event.Spares item.batch) : t.Punctual setup where
  ready batch isReady := by
    obtain ⟨early, spared⟩ := ready batch isReady
    rw [history, notBefore_stamped s spared]
    exact early
  backlog item held := by
    obtain ⟨old, spared⟩ := backlog item held
    rw [history, notBefore_stamped s spared]
    exact punctual.backlog item old
  timed := timed

/-- New events that are no matter of time. -/
theorem Punctual.timeless (punctual : s.Punctual setup) (block : List Event)
    (history : t.history = s.stamped block ++ s.history)
    (timeless : ∀ event ∈ block, event.IsTimeless)
    (ready : ∀ batch ∈ t.ready, notBefore batch s.history ≤ t.now)
    (backlog : ∀ item ∈ t.backlog.items, item ∈ s.backlog.items) : t.Punctual setup :=
  punctual.spared block history (history ▸ punctual.timed.stamped s timeless)
    (fun batch isReady ↦ ⟨ready batch isReady, fun event new ↦ (timeless event new).spares batch⟩)
    (fun item held ↦ ⟨backlog item held, fun event new ↦ (timeless event new).spares item.batch⟩)

/-- Nothing happens, and nothing is newly ready. -/
theorem Punctual.fewer (punctual : s.Punctual setup) (now : t.now = s.now)
    (history : t.history = s.history) (backlog : t.backlog = s.backlog)
    (ready : ∀ batch ∈ t.ready, batch ∈ s.ready) : t.Punctual setup :=
  punctual.timeless [] history (by simp)
    (fun batch isReady ↦ now ▸ punctual.ready batch (ready batch isReady))
    (fun _ held ↦ backlog ▸ held)

theorem batch?_eq_some {parcel : Parcel} {batch : Batch} :
    parcel.batch? = some batch ↔ parcel = .batch batch := by
  cases parcel <;> simp [Parcel.batch?]

theorem batch?_sending_eq_some {batch : Batch} : s.sending.batch? = some batch ↔
    ∃ call, s.sending = .calling call ∧ call.batch = batch := by
  cases s.sending <;> simp [Sending.batch?]

theorem mem_ready {batch : Batch} : batch ∈ s.ready ↔
    .batch batch ∈ s.batchQueue ∨ s.buffering.handing? = some (.batch batch) ∨
      batch ∈ s.retryQueue ∨ ∃ call, s.sending = .calling call ∧ call.batch = batch := by
  simp [ready, batch?_eq_some, batch?_sending_eq_some]

theorem mem_waiting {batch : Batch} : batch ∈ s.ledger.waiting ↔
    .batch batch ∈ s.batchQueue ∨ s.buffering.handing? = some (.batch batch) ∨
      batch ∈ s.retryQueue ∨ ∃ item ∈ s.backlog.items, item.batch = batch := by
  simp [Ledger.waiting, ledger, batch?_eq_some]

/-- When a call ends, what is ready was so before, and waited. -/
theorem mem_ready_of_idle {batch : Batch} (isReady : batch ∈ t.ready) (front : t.front = s.front)
    (batchQueue : t.batchQueue = s.batchQueue) (retryQueue : t.retryQueue = s.retryQueue)
    (idle : t.sending = .idle) : batch ∈ s.ready ∧ batch ∈ s.ledger.waiting := by
  have buffering : t.buffering = s.buffering := congrArg Front.buffering front
  rw [mem_ready] at isReady
  simp only [batchQueue, buffering, retryQueue, idle, reduceCtorEq, false_and, exists_false,
    or_false] at isReady
  rw [mem_ready, mem_waiting]
  tauto

/-! ## The buffering loop and the alarm -/

theorem Punctual.buffering? (punctual : s.Punctual setup)
    (named : ∀ event ∈ s.events, ∀ named, event.subject? = some named →
      named.serial < s.buffering.formed) (taken : s.buffering? setup = some t) :
    t.Punctual setup := by
  cases action_of_buffering? taken with
  | stop =>
    refine punctual.timeless [.bufferingStopped s.buffering.buffer.lineCount] rfl ?_ ?_ ?_
    · simp [Event.IsTimeless]
    · intro batch isReady
      apply punctual.ready
      rw [mem_ready] at isReady ⊢
      simp only [stopBuffering, record, reduceCtorEq, false_or] at isReady
      tauto
    · exact fun item held ↦ held
  | enqueue opened handing =>
    refine punctual.fewer rfl rfl rfl fun batch isReady ↦ ?_
    rw [mem_ready] at isReady ⊢
    simpa [State.enqueue, handing, eq_comm, or_assoc] using isReady
  | @beginHandOver next rest opened free outbox =>
    cases next with
    | barrier =>
      refine punctual.fewer rfl rfl rfl fun batch isReady ↦ ?_
      rw [mem_ready] at isReady ⊢
      simp only [State.beginHandOver, Option.some.injEq, reduceCtorEq, false_or] at isReady
      tauto
    | cut cut =>
      refine punctual.spared [.formed _] rfl (punctual.timed.cons rfl) ?_ ?_
      · intro batch isReady
        refine ⟨?_, by simp [Event.Spares]⟩
        rw [mem_ready] at isReady
        simp only [State.beginHandOver, record, Option.some.injEq, Parcel.batch.injEq] at isReady
        rcases isReady with queued | rfl | others
        · exact punctual.ready batch (mem_ready.mpr (.inl queued))
        · rw [notBefore_eq_zero]
          · exact Nat.zero_le _
          · rintro ⟨now, event⟩ there ⟨other, subject, same⟩
            have less := named event (List.mem_map_of_mem there) other subject
            exact absurd same less.ne
        · exact punctual.ready batch (mem_ready.mpr (.inr (.inr others)))
      · exact fun item held ↦ ⟨held, by simp [Event.Spares]⟩
  | restartTimer =>
    exact punctual.timeless [] rfl (by simp) punctual.ready (fun item held ↦ held)
  | gather =>
    rw [gather_eq]
    refine punctual.timeless _ rfl ?_ punctual.ready (fun item held ↦ held)
    simp [or_imp, forall_and, Event.IsTimeless]
  | flushBuffer =>
    rw [flushBuffer_eq]
    refine punctual.timeless _ rfl ?_ punctual.ready (fun item held ↦ held)
    simp [Event.IsTimeless]
  | flushOnRequest =>
    rw [flushOnRequest, flushBuffer_eq]
    refine punctual.timeless _ rfl ?_ punctual.ready (fun item held ↦ held)
    simp [Event.IsTimeless]

/-- What goes off is due, so its delay is over. -/
theorem Punctual.alarm? (punctual : s.Punctual setup) (taken : s.alarm? = some t) :
    t.Punctual setup := by
  obtain ⟨_, rfl⟩ := fire_of_alarm? taken
  rw [withBacklog_eq]
  refine punctual.timeless _ rfl ?_ ?_ ?_
  · simp only [List.mem_map]
    rintro _ ⟨batch, _, rfl⟩
    trivial
  · intro batch isReady
    rw [mem_ready] at isReady
    rcases isReady with queued | handing | retried | busy
    · exact punctual.ready batch (mem_ready.mpr (.inl queued))
    · exact punctual.ready batch (mem_ready.mpr (.inr (.inl handing)))
    · dsimp only at retried
      split at retried
      · exact punctual.ready batch (mem_ready.mpr (.inr (.inr (.inl retried))))
      · rcases List.mem_append.mp retried with old | new
        · exact punctual.ready batch (mem_ready.mpr (.inr (.inr (.inl old))))
        · obtain ⟨item, due, rfl⟩ := List.mem_map.mp new
          have held := (List.takeWhile_sublist _).subset due
          exact (punctual.backlog item held).trans (Backlog.le_of_mem_takeWhile due)
    · exact punctual.ready batch (mem_ready.mpr (.inr (.inr (.inr busy))))
  · exact fun item held ↦ (List.dropWhile_sublist _).subset held

/-! ## The sending loop -/

/-- A batch whose time has come begins to be sent in time, or has expired. -/
theorem Punctual.takenUp (punctual : s.Punctual setup) {batch : Batch}
    (early : notBefore batch s.history ≤ s.now)
    (taken : TakenUp setup s batch t) : t.Punctual setup := by
  cases taken with
  | expired isOver =>
    have late : batch.expires ≤ s.now := of_decide_eq_true isOver
    have lapsed : InTime setup s.now s.history (.expired batch (attemptOf setup batch)) := late
    refine punctual.spared _ rfl ?_ ?_ ?_
    · rw [stamped_append, List.append_assoc]
      apply Timed.stamped (punctual.timed.cons lapsed) s
      simp [forall_mem_reports, Event.IsTimeless]
    · refine fun other isReady ↦ ⟨punctual.ready other isReady, ?_⟩
      simp [or_imp, forall_and, forall_mem_reports, Event.Spares]
    · refine fun item held ↦ ⟨held, ?_⟩
      simp [or_imp, forall_and, forall_mem_reports, Event.Spares]
  | called inTime =>
    have sent : InTime setup s.now s.history (.called batch (attemptOf setup batch)) :=
      ⟨Nat.lt_of_not_le (of_decide_eq_false inTime), early⟩
    refine punctual.spared [.called batch (attemptOf setup batch)] rfl
      (punctual.timed.cons sent) ?_ ?_
    · intro other isReady
      refine ⟨?_, by simp [Event.Spares]⟩
      rw [mem_ready] at isReady
      simp only [Sending.calling.injEq, exists_eq_left'] at isReady
      rcases isReady with queued | handing | retried | rfl
      · exact punctual.ready other (mem_ready.mpr (.inl queued))
      · exact punctual.ready other (mem_ready.mpr (.inr (.inl handing)))
      · exact punctual.ready other (mem_ready.mpr (.inr (.inr (.inl retried))))
      · exact early
    · exact fun item held ↦ ⟨held, by simp [Event.Spares]⟩

/-- A failed call that is followed by a retry puts off its batch, and no other batch. -/
theorem Punctual.retrying (punctual : s.Punctual setup) {call : Call} {error : DeliveryError}
    {delay : Nat} {notes : List Event} (early : notBefore call.batch s.history ≤ s.now)
    (apart : ∀ held ∈ s.ledger.waiting, held.serial ≠ call.batch.serial)
    (notesTimeless : ∀ event ∈ notes, event.IsTimeless) (now : t.now = s.now)
    (history : t.history = s.stamped (notes ++ .retrying call.batch call.attempt error delay ::
      .delayed error call.attempt delay :: (reports setup error call.batch call.attempt ++
        [.answered call.batch call.attempt (some error)])) ++ s.history)
    (ready : ∀ batch ∈ t.ready, batch ∈ s.ready ∧ batch ∈ s.ledger.waiting)
    (backlog : ∀ item ∈ t.backlog.items, item ∈ s.backlog.items ∨
      item.batch.serial = call.batch.serial ∧ item.batch.expires = call.batch.expires ∧
        item.retryTime = min (Time.deadline s.now delay) item.batch.expires) :
    t.Punctual setup := by
  have blockTimeless : ∀ event ∈ .delayed error call.attempt delay ::
      (reports setup error call.batch call.attempt ++
        [.answered call.batch call.attempt (some error)]), event.IsTimeless := by
    simp [or_imp, forall_and, forall_mem_reports, Event.IsTimeless]
  have spared (batch : Batch) {block : List Event} (timeless : ∀ event ∈ block, event.IsTimeless) :
      ∀ event ∈ block, event.Spares batch :=
    fun event there ↦ (timeless event there).spares batch
  have others {batch : Batch} (waits : batch ∈ s.ledger.waiting) :
      notBefore batch t.history = notBefore batch s.history := by
    rw [history]
    apply notBefore_stamped
    rw [List.forall_mem_append, List.forall_mem_cons]
    exact ⟨spared batch notesTimeless, (apart batch waits).symm, spared batch blockTimeless⟩
  constructor
  case ready =>
    intro batch isReady
    obtain ⟨before, waits⟩ := ready batch isReady
    rw [others waits, now]
    exact punctual.ready batch before
  case backlog =>
    intro item held
    rcases backlog item held with old | ⟨serial, expires, due⟩
    · rw [others (mem_waiting.mpr (.inr (.inr (.inr ⟨item, old, rfl⟩))))]
      exact punctual.backlog item old
    · rw [history, notBefore_retrying s serial.symm (spared item.batch notesTimeless)
        (spared item.batch blockTimeless), due]
      have sooner : notBefore item.batch s.history ≤ s.now := by
        rwa [notBefore_congr serial expires]
      exact max_le le_rfl
        (le_min (sooner.trans (Time.le_deadline s.now delay)) notBefore_le_expires)
  case timed =>
    rw [history, stamped_append, List.append_assoc]
    refine Timed.stamped (Timed.cons (punctual.timed.stamped s blockTimeless) ?_) s notesTimeless
    exact ⟨s.history, by simp [stamped]⟩

/-- When a call ends, its batch is put off if it is to be sent again, and no other batch is. -/
theorem Punctual.callEnded (punctual : s.Punctual setup) {call : Call}
    (busy : s.sending = .calling call)
    (apart : ∀ held ∈ s.ledger.waiting, held.serial ≠ call.batch.serial)
    (ended : CallEnded setup s call t) : t.Punctual setup := by
  cases ended with
  | crashed =>
    refine punctual.timeless [.crashed call.batch] rfl (by simp [Event.IsTimeless]) ?_ ?_
    · intro batch isReady
      rw [mem_ready] at isReady
      simp only [List.not_mem_nil, reduceCtorEq, false_or, false_and, exists_false, or_false]
        at isReady
      exact punctual.ready batch (mem_ready.mpr (.inr (.inl isReady)))
    · intro item held
      dsimp only at held
      split at held <;> exact held
  | delivered =>
    refine punctual.timeless [.delivered call.batch call.attempt, .backoffReset,
      .answered call.batch call.attempt none] rfl (by simp [Event.IsTimeless]) ?_
      (fun item held ↦ held)
    intro batch isReady
    exact punctual.ready batch (mem_ready_of_idle (s := s) isReady rfl rfl rfl rfl).1
  | abandoned =>
    refine punctual.timeless _ rfl ?_ ?_ (fun item held ↦ held)
    · simp [or_imp, forall_and, forall_mem_reports, Event.IsTimeless]
    · intro batch isReady
      exact punctual.ready batch (mem_ready_of_idle (s := s) isReady rfl rfl rfl rfl).1
  | @retried took error delay added failure wanted left isDelay isAdded =>
    have early : notBefore call.batch s.history ≤ s.now :=
      punctual.ready call.batch (mem_ready.mpr (.inr (.inr (.inr ⟨call, busy, rfl⟩))))
    refine punctual.retrying early apart ?_ rfl rfl ?_ ?_
    · simp [Event.IsTimeless]
    · exact fun batch isReady ↦ mem_ready_of_idle (s := s) isReady rfl rfl rfl rfl
    · intro item held
      rcases Backlog.mem_add (isAdded ▸ held) with rfl | old
      · exact .inr ⟨rfl, rfl, rfl⟩
      · exact .inl old

theorem Punctual.sending? (punctual : s.Punctual setup)
    (apart : ∀ call, s.sending = .calling call → ∀ held ∈ s.ledger.waiting,
      held.serial ≠ call.batch.serial) (taken : s.sending? setup = some t) : t.Punctual setup := by
  cases action_of_sending? taken with
  | stop =>
    refine punctual.timeless [.sendingStopped] rfl (by simp [Event.IsTimeless]) ?_
      (fun item held ↦ held)
    intro batch isReady
    apply punctual.ready
    rw [mem_ready] at isReady ⊢
    simp only [stopSending, record, List.not_mem_nil, reduceCtorEq, false_or, false_and,
      exists_false, or_false] at isReady
    exact .inr (.inl isReady)
  | @again batch rest _ idle opened retries taken =>
    have left : Punctual setup { s with retryQueue := rest } := by
      refine punctual.fewer rfl rfl rfl fun other isReady ↦ ?_
      rw [mem_ready] at isReady ⊢
      simp only [retries, List.mem_cons]
      tauto
    exact left.takenUp (punctual.ready batch (mem_ready.mpr (by simp [retries]))) taken
  | @fresh batch rest _ idle opened noRetry parcels taken =>
    have left : Punctual setup { s with batchQueue := rest } := by
      refine punctual.fewer rfl rfl rfl fun other isReady ↦ ?_
      rw [mem_ready] at isReady ⊢
      simp only [parcels, List.mem_cons]
      tauto
    exact left.takenUp (punctual.ready batch (mem_ready.mpr (by simp [parcels]))) taken
  | @barrier rest idle opened noRetry parcels =>
    refine punctual.fewer rfl rfl rfl fun other isReady ↦ ?_
    rw [mem_ready] at isReady ⊢
    simp only [parcels, List.mem_cons]
    tauto
  | endCall busy isOver ended => exact punctual.callEnded busy (apart _ busy) ended

/-! ## The client -/

/-- A flush lets all retries go, so none of them is too early. -/
theorem Punctual.flushing (punctual : s.Punctual setup) (released : Nat)
    (block : List Event) (timeless : ∀ event ∈ block, event.IsTimeless)
    (history : t.history = s.stamped (.flushing released :: block) ++ s.history) :
    t.Punctual setup where
  ready batch _ := by
    rw [history]
    exact Nat.zero_le _
  backlog item _ := by
    rw [history]
    exact Nat.zero_le _
  timed := history ▸ (punctual.timed.stamped s timeless).cons trivial

theorem Punctual.served (punctual : s.Punctual setup) {request : Request}
    (served : Served setup s request t) : t.Punctual setup := by
  have releases : ∀ event ∈ s.backlog.releaseAll.2.reverse.map fun batch ↦
      Event.backlog (if s.sending.isOver then .discarded batch else .released batch),
      event.IsTimeless := by
    simp [Event.IsTimeless]
  cases served with
  | refused =>
    exact punctual.timeless [.refused] rfl (by simp [Event.IsTimeless]) punctual.ready
      (fun item held ↦ held)
  | lost =>
    exact punctual.timeless [.lost] rfl (by simp [Event.IsTimeless]) punctual.ready
      (fun item held ↦ held)
  | @accepted chunk =>
    exact punctual.timeless [.accepted chunk] rfl (by simp [Event.IsTimeless]) punctual.ready
      (fun item held ↦ held)
  | unencodable error =>
    refine punctual.timeless _ rfl ?_ punctual.ready (fun item held ↦ held)
    split <;> simp [Event.IsTimeless]
  | flushStopped =>
    rw [withBacklog_eq]
    exact punctual.flushing _ _ releases rfl
  | flush =>
    rw [withBacklog_eq]
    exact punctual.flushing _ _ releases rfl
  | closeAgain =>
    exact punctual.timeless [.stopped _ _] rfl (by simp [Event.IsTimeless]) punctual.ready
      (fun item held ↦ held)
  | giveUp =>
    refine punctual.timeless [] rfl (by simp) punctual.ready ?_
    intro item held
    unfold State.giveUp at held
    dsimp only at held
    split at held <;> exact held
  | _ => exact punctual.timeless [] rfl (by simp) punctual.ready (fun item held ↦ held)

theorem Punctual.client? (punctual : s.Punctual setup) (taken : s.client? setup = some t) :
    t.Punctual setup := by
  cases action_of_client? taken with
  | @endWait wait waits isOver =>
    cases wait with
    | bothLoops residual =>
      have timeless : ∀ event ∈ s.endEvents residual, event.IsTimeless := by
        unfold endEvents
        split <;> simp [Event.IsTimeless]
      rw [endWait_bothLoops]
      exact punctual.timeless _ rfl timeless punctual.ready (fun item held ↦ held)
    | _ => exact punctual.timeless [] rfl (by simp) punctual.ready (fun item held ↦ held)
  | @serve request rest _ free asked served =>
    have asked : Punctual setup { s with requests := rest } :=
      punctual.timeless [] rfl (by simp) punctual.ready (fun item held ↦ held)
    exact asked.served served

end State

theorem Reachable.punctual {setup : Setup} {s : State} (reachable : Reachable setup s) :
    s.Punctual setup := by
  induction reachable with
  | start started =>
    rw [(start?_eq_ok started).2]
    constructor
    · simp [State.ready, State.start, State.record, Sending.batch?]
    · simp [State.start, State.record, Backlog.empty]
    · exact ⟨trivial, trivial⟩
  | @move s t before move ih =>
    cases move with
    | step task taken =>
      cases task with
      | buffering => exact ih.buffering? before.lived.named taken
      | alarm => exact ih.alarm? taken
      | sending =>
        exact ih.sending? (fun call busy held waits ↦
          before.accounted.serial_ne_of_calling busy waits) taken
      | client => exact ih.client? taken
    | pass now later =>
      exact ih.timeless [] rfl (by simp) (fun batch isReady ↦ (ih.ready batch isReady).trans later)
        (fun item held ↦ held)
    | ask requests idle => exact ih.timeless [] rfl (by simp) ih.ready (fun item held ↦ held)

end LineDelivery.Pipeline
