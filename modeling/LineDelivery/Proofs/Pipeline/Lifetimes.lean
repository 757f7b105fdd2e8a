import LineDelivery.Proofs.Pipeline.Life
import LineDelivery.Proofs.Pipeline.Standing

/-!
# Every formed batch has a life

A step of the ledger is a turn in the life of at most one batch, and leaves all others where they
are, since no two batches on their way have the same number. So the events of a run are a life of each
batch that they form, and its laws hold of every run, with whatever else goes on.
-/

namespace LineDelivery.Pipeline

theorem Event.IsAside.subject? {event : Event} (aside : event.IsAside) : event.subject? = none := by
  cases event with
  | reported error batch? attempt => cases batch? <;> first | rfl | exact aside.elim
  | backlog event => cases event <;> first | rfl | exact aside.elim
  | _ => first | rfl | exact aside.elim

theorem Event.not_names_of_serial_ne {event : Event} {batch named : Batch}
    (subject : event.subject? = some named) (other : named.serial ≠ batch.serial) :
    ¬ event.Names batch := by
  rintro ⟨same, eq, serial⟩
  rw [subject, Option.some.injEq] at eq
  exact other (eq ▸ serial)

theorem Event.not_names_of_subject?_eq_none {event : Event} {batch : Batch}
    (subject : event.subject? = none) : ¬ event.Names batch := by
  rintro ⟨named, eq, _⟩
  simp [subject] at eq

theorem Life.others {setup : Setup} {batch : Batch} {older block : List Event} {stage : Stage}
    (life : Life setup batch older stage) (unnamed : ∀ event ∈ block, ¬ event.Names batch) :
    Life setup batch (block ++ older) stage := by
  induction block with
  | nil => exact life
  | cons event block ih =>
    obtain ⟨first, rest⟩ := List.forall_mem_cons.mp unnamed
    exact .other (ih rest) first

namespace Ledger

variable {setup : Setup} {l m : Ledger} {batch : Batch} {stage : Stage}

/-- Where the ledger has a batch agrees with a stage. -/
structure Stands (l : Ledger) (batch : Batch) (stage : Stage) : Prop where
  waiting : ∀ held ∈ l.waiting, held.serial = batch.serial →
    ∃ failures, stage = .waiting failures ∧ held = batch.after failures
  calling : ∀ call, l.sending = .calling call → call.batch.serial = batch.serial →
    ∃ failures, stage = .calling failures ∧ call.batch = batch.after failures ∧
      call.attempt = attemptAfter failures

/-- Every formed batch has a life, and no event names a batch that was not formed. -/
structure Lived (setup : Setup) (l : Ledger) : Prop where
  lives : ∀ batch ∈ formedIn l.events, ∃ stage, Life setup batch l.events stage ∧ l.Stands batch stage
  named : ∀ event ∈ l.events, ∀ named, event.subject? = some named → named.serial < l.formed

namespace Accounted

theorem serial_lt_of_formed (accounted : Accounted setup l) (formed : batch ∈ formedIn l.events) :
    batch.serial < l.formed := by
  have listed := List.mem_map_of_mem (f := Batch.serial) formed
  rw [accounted.serials] at listed
  exact List.mem_range.mp listed

theorem serial_lt (accounted : Accounted setup l) (known : batch ∈ l.known) :
    batch.serial < l.formed := by
  have less := accounted.serial_lt_of_formed (accounted.renewed_mem_formedIn known)
  exact less

theorem mem_known_of_waiting (waits : batch ∈ l.waiting) : batch ∈ l.known :=
  Multiset.mem_add.mpr (.inr (Multiset.mem_add.mpr (.inr waits)))

theorem mem_known_of_calling {call : Call} (busy : l.sending = .calling call) :
    call.batch ∈ l.known := by
  simp [known, batches, busy, Sending.batch?]

/-- Nothing else that waits has the number of a batch that waits. -/
theorem serial_ne_of_waiting (accounted : Accounted setup l) {rest : Multiset Batch}
    (waiting : l.waiting = batch ::ₘ rest) {held : Batch} (waits : held ∈ rest) :
    held.serial ≠ batch.serial := by
  have nodup : (l.waiting.map Batch.serial).Nodup :=
    Multiset.nodup_of_le (Multiset.map_le_map ((Multiset.le_add_left _ _).trans
      (Multiset.le_add_left _ _))) accounted.nodup_serials
  rw [waiting, Multiset.map_cons, Multiset.nodup_cons] at nodup
  exact fun same ↦ nodup.1 (same ▸ Multiset.mem_map_of_mem _ waits)

/-- Nothing that waits has the number of the batch that is being sent. -/
theorem serial_ne_of_calling (accounted : Accounted setup l) {call : Call}
    (busy : l.sending = .calling call) {held : Batch} (waits : held ∈ l.waiting) :
    held.serial ≠ call.batch.serial := by
  have nodup : (l.batches.map Batch.serial).Nodup :=
    Multiset.nodup_of_le (Multiset.map_le_map (Multiset.le_add_left _ _)) accounted.nodup_serials
  have split : l.batches = call.batch ::ₘ l.waiting := by simp [batches, busy, Sending.batch?]
  rw [split, Multiset.map_cons, Multiset.nodup_cons] at nodup
  exact fun same ↦ nodup.1 (same ▸ Multiset.mem_map_of_mem _ waits)

end Accounted

/-! ## Steps -/

/-- A step that is about no batch, and at most takes some away. -/
theorem Lived.quiet (lived : Lived setup l) (block : List Event)
    (events : m.events = block ++ l.events) (formed : m.formed = l.formed)
    (unnamed : ∀ event ∈ block, event.subject? = none)
    (waiting : ∀ held ∈ m.waiting, held ∈ l.waiting)
    (calling : ∀ call, m.sending = .calling call → l.sending = .calling call) : Lived setup m where
  lives batch isFormed := by
    have same : formedIn m.events = formedIn l.events := by
      rw [events, formedIn_quiet]
      exact fun event there ↦ Event.formed?_eq_none (unnamed event there)
    obtain ⟨stage, life, stands⟩ := lived.lives batch (same ▸ isFormed)
    have apart : ∀ event ∈ block, ¬ event.Names batch :=
      fun event there ↦ Event.not_names_of_subject?_eq_none (unnamed event there)
    refine ⟨stage, events ▸ life.others apart, ?_, ?_⟩
    · exact fun held waits ↦ stands.waiting held (waiting held waits)
    · exact fun call busy ↦ stands.calling call (calling call busy)
  named event there named subject := by
    rw [formed]
    rcases List.mem_append.mp (events ▸ there) with new | old
    · simp [unnamed event new] at subject
    · exact lived.named event old named subject

/-- A step that is a turn of one batch, and leaves all others where they are. -/
theorem Lived.turn (lived : Lived setup l) (accounted : Accounted setup l) {subject : Batch}
    {block : List Event} (known : subject ∈ l.known) (events : m.events = block ++ l.events)
    (formed : m.formed = l.formed)
    (waiting : ∀ held ∈ m.waiting, held.serial ≠ subject.serial → held ∈ l.waiting)
    (calling : ∀ call, m.sending = .calling call → call.batch.serial ≠ subject.serial →
      l.sending = .calling call)
    (turn : ∀ batch ∈ formedIn l.events, subject.serial = batch.serial → ∀ stage,
      Life setup batch l.events stage → l.Stands batch stage →
        ∃ after, Turn setup batch l.events stage block after ∧ m.Stands batch after) :
    Lived setup m := by
  -- The subject was formed itself, so the block is a turn: it forms nothing and names nothing else.
  have isKnown := accounted.renewed_mem_formedIn known
  obtain ⟨stage, life, stands⟩ := lived.lives _ isKnown
  obtain ⟨after, own, _⟩ := turn _ isKnown rfl stage life stands
  have same : formedIn m.events = formedIn l.events := by rw [events, own.formedIn_append]
  have about : ∀ event ∈ block, ∀ named, event.subject? = some named →
      named.serial = subject.serial := by
    intro event there named isSubject
    obtain ⟨failures, rfl⟩ := own.eq_after event there named isSubject
    rfl
  constructor
  · intro batch isFormed
    obtain ⟨stage, life, stands⟩ := lived.lives batch (same ▸ isFormed)
    by_cases own : subject.serial = batch.serial
    · obtain ⟨after, turn, stands⟩ := turn batch (same ▸ isFormed) own stage life stands
      exact ⟨after, events ▸ life.turn turn, stands⟩
    · have apart : ∀ event ∈ block, ¬ event.Names batch := by
        rintro event there ⟨named, isSubject, serial⟩
        exact own ((about event there named isSubject).symm.trans serial)
      refine ⟨stage, events ▸ life.others apart, ?_, ?_⟩
      · intro held waits serial
        exact stands.waiting held (waiting held waits fun eq ↦ own (eq.symm.trans serial)) serial
      · intro call busy serial
        exact stands.calling call (calling call busy fun eq ↦ own (eq.symm.trans serial)) serial
  · intro event there named isSubject
    rw [formed]
    rcases List.mem_append.mp (events ▸ there) with new | old
    · exact about event new named isSubject ▸ accounted.serial_lt known
    · exact lived.named event old named isSubject

theorem attemptOf_after {failures : Nat} (remaining : batch.remaining = setup.maxRetries)
    (few : failures ≤ batch.remaining) :
    State.attemptOf setup (batch.after failures) = attemptAfter failures := by
  unfold State.attemptOf attemptAfter Batch.after
  dsimp only
  rw [← remaining]
  congr 2
  omega

/-- A turn of a batch that waits no longer. -/
theorem Lived.turn_waiting (lived : Lived setup l) (accounted : Accounted setup l)
    (subject : Batch) (block : List Event) (moved : l.waiting = subject ::ₘ m.waiting)
    (events : m.events = block ++ l.events) (formed : m.formed = l.formed)
    (calling : ∀ call, m.sending = .calling call → call.batch.serial ≠ subject.serial →
      l.sending = .calling call)
    (turn : ∀ batch failures, subject = batch.after failures →
      State.attemptOf setup subject = attemptAfter failures →
        ∃ after, Turn setup batch l.events (.waiting failures) block after ∧
          ∀ call, m.sending = .calling call → call.batch.serial = batch.serial →
            after = .calling failures ∧ call.batch = subject ∧
              call.attempt = attemptAfter failures) :
    Lived setup m := by
  have waits : subject ∈ l.waiting := moved ▸ Multiset.mem_cons_self _ _
  have waiting : ∀ held ∈ m.waiting, held.serial ≠ subject.serial → held ∈ l.waiting :=
    fun held there _ ↦ moved ▸ Multiset.mem_cons_of_mem there
  refine lived.turn accounted (Accounted.mem_known_of_waiting waits) events formed waiting calling ?_
  intro batch isFormed serial stage life stands
  obtain ⟨failures, rfl, isAfter⟩ := stands.waiting subject waits serial
  obtain ⟨few, _⟩ := life.counted
  have attempt := attemptOf_after (accounted.remaining batch isFormed) few
  obtain ⟨after, turn, called⟩ := turn batch failures isAfter (isAfter ▸ attempt)
  refine ⟨after, turn, ?_, ?_⟩
  · intro held there equal
    exact absurd (equal.trans serial.symm) (accounted.serial_ne_of_waiting moved there)
  · intro call busy equal
    obtain ⟨stage, eq, attempt⟩ := called call busy equal
    exact ⟨failures, stage, eq.trans isAfter, attempt⟩

/-- A turn of the batch whose call comes to an end. -/
theorem Lived.turn_calling (lived : Lived setup l) (accounted : Accounted setup l) {call : Call}
    (block : List Event) (busy : l.sending = .calling call)
    (isOver : ∀ other, m.sending ≠ .calling other)
    (events : m.events = block ++ l.events) (formed : m.formed = l.formed)
    (waiting : ∀ held ∈ m.waiting, held ∈ l.waiting ∨
      held = { call.batch with remaining := call.batch.remaining - 1 })
    (turn : ∀ batch failures, call.batch = batch.after failures →
      call.attempt = attemptAfter failures → failures ≤ batch.remaining →
        ∃ after, Turn setup batch l.events (.calling failures) block after ∧
          ({ call.batch with remaining := call.batch.remaining - 1 } ∈ m.waiting →
            after = .waiting (failures + 1))) :
    Lived setup m := by
  refine lived.turn accounted (Accounted.mem_known_of_calling busy) events formed ?_
    (fun other again ↦ (isOver other again).elim) ?_
  · rintro held there other
    rcases waiting held there with old | rfl
    · exact old
    · exact absurd rfl other
  intro batch isFormed serial stage life stands
  obtain ⟨failures, rfl, isAfter, attempt⟩ := stands.calling call busy serial
  obtain ⟨few, _⟩ := life.counted
  obtain ⟨after, turn, again⟩ := turn batch failures isAfter attempt few
  refine ⟨after, turn, ?_, fun other again ↦ (isOver other again).elim⟩
  intro held there equal
  rcases waiting held there with old | rfl
  · exact absurd (equal.trans serial.symm) (accounted.serial_ne_of_calling busy old)
  · refine ⟨failures + 1, again there, ?_⟩
    rw [isAfter, Batch.after_succ]

/-- A new batch begins its life, and has a number that no event has named. -/
theorem Lived.form (lived : Lived setup l) (accounted : Accounted setup l)
    (serial : batch.serial = l.formed) (events : m.events = .formed batch :: l.events)
    (formed : m.formed = l.formed + 1)
    (waiting : ∀ held ∈ m.waiting, held = batch ∨ held ∈ l.waiting)
    (sending : m.sending = l.sending) : Lived setup m where
  lives other isFormed := by
    have older : ∀ held ∈ l.waiting, held.serial ≠ batch.serial := by
      intro held waits
      have less := accounted.serial_lt (Accounted.mem_known_of_waiting waits)
      omega
    have grown : formedIn m.events = formedIn l.events ++ [batch] := by
      simp [events, Event.formed?]
    rw [events]
    rcases List.mem_append.mp (grown ▸ isFormed) with old | new
    · obtain ⟨stage, life, stands⟩ := lived.lives other old
      have less := accounted.serial_lt_of_formed old
      have apart : batch.serial ≠ other.serial := by omega
      refine ⟨stage, life.other (Event.not_names_of_serial_ne rfl apart), ?_, ?_⟩
      · intro held waits equal
        rcases waiting held waits with rfl | waits
        · exact absurd equal apart
        · exact stands.waiting held waits equal
      · exact fun call busy ↦ stands.calling call (sending ▸ busy)
    · obtain rfl := List.mem_singleton.mp new
      have fresh : ∀ event ∈ l.events, ¬ event.Names other := by
        rintro event there ⟨named, subject, equal⟩
        have less := lived.named event there named subject
        omega
      refine ⟨.waiting 0, .formed fresh, ?_, ?_⟩
      · intro held waits equal
        rcases waiting held waits with rfl | waits
        · exact ⟨0, rfl, rfl⟩
        · exact absurd equal (older held waits)
      · intro call busy equal
        have less := accounted.serial_lt (Accounted.mem_known_of_calling (sending ▸ busy))
        omega
  named event there named subject := by
    rw [formed]
    rcases List.mem_cons.mp (events ▸ there) with rfl | old
    · obtain rfl := Option.some.inj subject
      omega
    · exact (lived.named event old named subject).trans (Nat.lt_succ_self _)

theorem Step.lived (step : Step setup l m) (accounted : Accounted setup l) (lived : Lived setup l) :
    Lived setup m := by
  cases step with
  | aside event aside =>
    exact lived.quiet [event] rfl rfl (by simp [aside.subject?]) (fun _ waits ↦ waits)
      (fun _ busy ↦ busy)
  | accept chunk filled =>
    exact lived.quiet [.accepted chunk] rfl rfl (by simp [Event.subject?])
      (fun _ waits ↦ waits) (fun _ busy ↦ busy)
  | form cut filled serial remaining =>
    apply lived.form accounted serial (by rfl) (by rfl) _ (by rfl)
    intro held waits
    simpa [waiting, Parcel.batch?, or_assoc, or_left_comm] using waits
  | sendBarrier =>
    exact lived.quiet [] rfl rfl (by simp) (by simp [waiting, Parcel.batch?])
      (fun _ busy ↦ busy)
  | meetBarrier idle noRetry first =>
    exact lived.quiet [] rfl rfl (by simp) (by simp [waiting, first, Parcel.batch?])
      (fun _ busy ↦ busy)
  | @expire m batch idle takes =>
    have free := takes.sending_eq.trans idle
    apply lived.turn_waiting accounted batch
      (reports setup .maxRetryTimeExceeded batch (State.attemptOf setup batch) ++
        [.expired batch (State.attemptOf setup batch)]) (by exact takes.waiting_eq)
    · simp [takes.events_eq]
    · exact takes.formed_eq
    · simp [free]
    · rintro batch failures rfl attempt
      exact ⟨.finished, attempt ▸ .expire, by simp [free]⟩
  | @call m call idle takes attempt =>
    apply lived.turn_waiting accounted call.batch [.called call.batch call.attempt]
      (by exact takes.waiting_eq)
    · simp [takes.events_eq]
    · exact takes.formed_eq
    · rintro other busy serial
      obtain rfl := Sending.calling.inj busy
      exact absurd rfl serial
    · intro batch failures isAfter number
      refine ⟨.calling failures, ?_, ?_⟩
      · rw [attempt, number, isAfter]
        exact .call
      · rintro other busy _
        obtain rfl := Sending.calling.inj busy
        exact ⟨rfl, rfl, attempt.trans number⟩
  | @crash call took busy crash =>
    apply lived.turn_calling accounted [.crashed call.batch] busy (by simp) (by rfl)
    · rfl
    · exact fun held waits ↦ .inl waits
    · intro batch failures isAfter _ _
      refine ⟨.finished, isAfter ▸ .crash, ?_⟩
      exact fun again ↦ (accounted.serial_ne_of_calling busy again rfl).elim
  | @deliver call took busy success =>
    apply lived.turn_calling accounted [.delivered call.batch call.attempt, .backoffReset,
      .answered call.batch call.attempt none] busy (by simp) (by rfl)
    · rfl
    · exact fun held waits ↦ .inl waits
    · intro batch failures isAfter attempt _
      refine ⟨.finished, ?_, ?_⟩
      · rw [isAfter, attempt]
        exact .deliver
      · exact fun again ↦ (accounted.serial_ne_of_calling busy again rfl).elim
  | @abandon call took error busy failure final =>
    apply lived.turn_calling accounted (.abandoned call.batch call.attempt error ::
      (reports setup error call.batch call.attempt ++
        [.answered call.batch call.attempt (some error)])) busy (by simp) (by simp)
    · rfl
    · exact fun held waits ↦ .inl waits
    · intro batch failures isAfter attempt few
      refine ⟨.finished, ?_, ?_⟩
      · rw [accounted.verdicts, isAfter] at final
        rw [isAfter, attempt]
        exact .abandon error (by simpa [Batch.after, Nat.sub_pos_iff_lt] using final)
      · exact fun again ↦ (accounted.serial_ne_of_calling busy again rfl).elim
  | @retry call took error delay busy failure wanted left =>
    apply lived.turn_calling accounted (.retrying call.batch call.attempt error delay ::
      .delayed error call.attempt delay :: (reports setup error call.batch call.attempt ++
        [.answered call.batch call.attempt (some error)])) busy (by simp) (by simp)
    · rfl
    · simp [waiting, or_comm]
    · intro batch failures isAfter attempt few
      refine ⟨.waiting (failures + 1), ?_, fun _ ↦ rfl⟩
      rw [accounted.verdicts] at wanted
      rw [isAfter] at left
      rw [isAfter, attempt]
      exact .retry error delay wanted (Nat.lt_of_sub_pos left)
  | @release batch rest held =>
    apply lived.quiet [.backlog (.released batch)] (by rfl) (by rfl)
    · simp [Event.subject?]
    · intro other waits
      simpa [waiting, held, or_assoc, or_left_comm] using waits
    · exact fun _ busy ↦ busy
  | @remove item rest limit held =>
    have moved : l.waiting = item.batch ::ₘ waiting { l with held := rest } := by
      simp [waiting, held]
    apply lived.turn_waiting accounted item.batch [.backlog (.removed item limit)]
      (by exact moved)
    · rfl
    · rfl
    · exact fun _ busy _ ↦ busy
    · intro batch failures isAfter _
      refine ⟨.finished, .remove item limit isAfter, ?_⟩
      intro call busy serial
      have waits : item.batch ∈ l.waiting := moved ▸ Multiset.mem_cons_self _ _
      refine absurd ?_ (accounted.serial_ne_of_calling busy waits)
      rw [serial, isAfter, Batch.serial_after]
  | tear =>
    exact lived.quiet [] rfl rfl (by simp) (fun _ waits ↦ waits)
      (fun _ busy ↦ busy)
  | stop idle torn =>
    exact lived.quiet [] rfl rfl (by simp) (fun _ waits ↦ waits) (by simp)
  | @lose upstream conveyor retries held torn upstream_sublist conveyor_sublist retries_sublist held_le =>
    have less : waiting { l with upstream, conveyor, retries, held } ≤ l.waiting :=
      add_le_add (add_le_add (Multiset.coe_le.mpr (conveyor_sublist.filterMap _).subperm)
        (Multiset.coe_le.mpr retries_sublist.subperm)) held_le
    exact lived.quiet [] rfl rfl (by simp) (fun _ waits ↦ Multiset.mem_of_le less waits)
      (fun _ busy ↦ busy)

theorem lived_opening {event : Event} (aside : event.IsAside) : Lived setup (opening event) where
  lives := by simp [opening, aside.formed?]
  named := by simp [opening, aside.subject?]

theorem Lived.steps (lived : Lived setup l) (accounted : Accounted setup l)
    (steps : Steps setup l m) : Lived setup m := by
  induction steps with
  | refl => exact lived
  | tail before step ih => exact step.lived (accounted.steps before) ih

/-- The backoff is asked right after a failed call and its report, about the same attempt. -/
def DelaysFollow (setup : Setup) (events : List Event) : Prop :=
  ∀ error attempt delay older, .delayed error attempt delay :: older <:+ events →
    ∃ sent oldest, older =
      reports setup error sent attempt ++ .answered sent attempt (some error) :: oldest

theorem Step.delaysFollow (step : Step setup l m) (follow : DelaysFollow setup l.events) :
    DelaysFollow setup m.events := by
  intro error attempt delay older there
  cases step with
  | aside event aside =>
    rcases List.suffix_cons_iff.mp there with whole | behind
    · obtain ⟨rfl, rfl⟩ := List.cons.inj whole
      exact aside.elim
    · exact follow error attempt delay older behind
  | @retry call took error' delay' busy failure wanted left =>
    simp only [List.suffix_cons_iff, suffix_reports_append, List.cons.injEq, reduceCtorEq,
      false_and, and_false, false_or, Event.delayed.injEq] at there
    rcases there with ⟨⟨rfl, rfl, rfl⟩, rfl⟩ | behind
    · exact ⟨call.batch, l.events, rfl⟩
    · exact follow error attempt delay older behind
  | expire idle takes =>
    apply follow error attempt delay older
    simpa [List.suffix_cons_iff, suffix_reports_append, takes.events_eq] using there
  | call call idle takes attempt =>
    apply follow error _ delay older
    simpa [List.suffix_cons_iff, takes.events_eq] using there
  | _ =>
    apply follow error attempt delay older
    simpa [List.suffix_cons_iff, suffix_reports_append] using there

theorem DelaysFollow.steps (follow : DelaysFollow setup l.events) (steps : Steps setup l m) :
    DelaysFollow setup m.events := by
  induction steps with
  | refl => exact follow
  | tail _ step ih => exact step.delaysFollow ih

end Ledger

/-! ## The laws -/

/-- What holds of a batch throughout a writer's events, the newest of which come first. -/
structure Lawful (setup : Setup) (batch : Batch) (events : List Event) : Prop where
  /-- Whatever is sent, reported or finished has the bytes and the expiry of the formed batch. -/
  unchanged : ∀ event ∈ events, ∀ named, event.subject? = some named →
    named.serial = batch.serial → named.lines = batch.lines ∧ named.expires = batch.expires
  /-- When a call begins, all earlier calls have come to an end. -/
  apart : ∀ sent attempt older, .called sent attempt :: older <:+ events →
    sent.serial = batch.serial → callsOf batch older = answersOf batch older
  bounded : callsOf batch events ≤ setup.maxRetries + 1
  /-- A failed call is numbered, reported under its number, and followed by a retry with a delay for
  that number, or by the end. -/
  failed : ∀ sent attempt error older, .answered sent attempt (some error) :: older <:+ events →
    sent.serial = batch.serial →
      attempt = min (failuresOf batch older + 1) (2 ^ 32 - 1) ∧
        if setup.wantsRetry (askedIn older) error ∧ failuresOf batch older < setup.maxRetries then
          ∃ delay, .retrying sent attempt error delay :: .delayed error attempt delay ::
            (reports setup error sent attempt ++
              .answered sent attempt (some error) :: older) <:+ events
        else
          .abandoned sent attempt error :: (reports setup error sent attempt ++
            .answered sent attempt (some error) :: older) <:+ events
  /-- The handler is called for nothing but a failed call or an expiry. -/
  reported : ∀ error named attempt older, .reported error (some named) attempt :: older <:+ events →
    named.serial = batch.serial →
      (∃ oldest, older = .answered named attempt (some error) :: oldest) ∨
        error = .maxRetryTimeExceeded ∧ ∃ oldest, older = .expired named attempt :: oldest
  expired : ∀ named attempt older, .expired named attempt :: older <:+ events →
    named.serial = batch.serial →
      attempt = min (callsOf batch older + 1) (2 ^ 32 - 1) ∧
        reports setup .maxRetryTimeExceeded named attempt ++ .expired named attempt :: older <:+
          events
  /-- After a failed call there is another one only if that was wanted and a retry was left. -/
  again : ∀ sent attempt older, .called sent attempt :: older <:+ events →
    sent.serial = batch.serial →
      ∀ refused number error oldest, .answered refused number (some error) :: oldest <:+ older →
        refused.serial = batch.serial →
          setup.wantsRetry (askedIn oldest) error ∧ failuresOf batch oldest < setup.maxRetries
  /-- Once it is finished, no event names the batch, except that its expiry is reported at once. -/
  final : ∀ event older ended, event :: older <:+ events → event.finished? = some ended →
    ended.serial = batch.serial →
      ∃ newer, events = newer ++ (aftermath setup event ++ event :: older) ∧
        ∀ event ∈ newer, ¬ event.Names batch

theorem Life.lawful {setup : Setup} {batch : Batch} {events : List Event} {stage : Stage}
    (life : Life setup batch events stage) (remaining : batch.remaining = setup.maxRetries) :
    Lawful setup batch events where
  unchanged event there named subject same := by
    obtain ⟨failures, rfl⟩ := life.eq_after there subject same
    exact ⟨rfl, rfl⟩
  apart sent attempt older there same := by
    obtain ⟨failures, before⟩ := life.called there same
    obtain ⟨_, calls, answers, _⟩ := before.counted
    rw [calls, answers]
  bounded := by
    have counted := life.counted
    rw [← remaining]
    cases stage with
    | waiting failures =>
      obtain ⟨few, calls, _⟩ := counted
      omega
    | calling failures =>
      obtain ⟨few, calls, _⟩ := counted
      omega
    | finished => exact counted
  failed sent attempt error older there same := by
    obtain ⟨failures, before, number, ending⟩ := life.failed there same
    obtain ⟨_, _, _, count⟩ := before.counted
    rw [← remaining, count]
    exact ⟨number, ending⟩
  reported error named attempt older there same := life.reported there same
  expired named attempt older there same := by
    obtain ⟨failures, before, number, report⟩ := life.expired there same
    obtain ⟨_, calls, _⟩ := before.counted
    rw [calls]
    exact ⟨number, report⟩
  again sent attempt older there same refused number error oldest failed of := by
    obtain ⟨failures, before⟩ := life.called there same
    rw [← remaining]
    exact before.wanted (by simp) failed of
  final event older ended there finished same := (life.silent there finished same).2

namespace Reachable

variable {setup : Setup} {s : State}

/-- Whatever a batch goes through, its events make up a life. -/
theorem lived (reachable : Reachable setup s) : Ledger.Lived setup s.ledger := by
  have aside : (Event.started setup.options.flushInterval.toNat setup.maxRetries).IsAside := trivial
  exact (Ledger.lived_opening aside).steps (Ledger.accounted_opening aside) reachable.steps

theorem delaysFollow (reachable : Reachable setup s) : Ledger.DelaysFollow setup s.events := by
  apply Ledger.DelaysFollow.steps _ reachable.steps
  simp [Ledger.DelaysFollow, Ledger.opening, List.suffix_cons_iff]

/-- In every run, whatever the transport, the handler and the backoff answer, the life of a batch
obeys its laws. -/
theorem lawful_of_formed (reachable : Reachable setup s) {batch : Batch}
    (formed : .formed batch ∈ s.events) :
    Lawful setup batch s.events ∧ Ledger.DelaysFollow setup s.events := by
  have isFormed : batch ∈ formedIn s.events :=
    List.mem_reverse.mpr (List.mem_filterMap.mpr ⟨_, formed, rfl⟩)
  obtain ⟨stage, life, _⟩ := reachable.lived.lives batch isFormed
  exact ⟨life.lawful (reachable.accounted.remaining batch isFormed), reachable.delaysFollow⟩

end Reachable

/-- A line is written, its first call is refused, and after a second so is the retry. -/
def State.exhausted : State :=
  { { start .refusing with requests := [.line [65]] }.settle .refusing with
    now := 1000000000 }.settle .refusing

theorem lawful_exhausted : ∃ batch, callsOf batch State.exhausted.events = 2 ∧
    Lawful .refusing batch State.exhausted.events ∧
      Ledger.DelaysFollow .refusing State.exhausted.events := by
  refine ⟨{ serial := 0, chunks := [[65, 10]], remaining := 1, expires := 180000000000 },
    by decide +kernel, Reachable.lawful_of_formed ?_ (by decide +kernel)⟩
  apply (Reachable.start rfl).runs
  exact (State.settle_ask_runs _ rfl).trans (State.settle_pass_runs _ (by decide +kernel))

end LineDelivery.Pipeline
