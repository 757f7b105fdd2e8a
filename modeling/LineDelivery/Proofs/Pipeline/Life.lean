import LineDelivery.Proofs.Pipeline.Accounts

/-!
# The life of a batch

What the events say of one batch. It is formed once, and from then on it waits, is in a call, or is
over; every turn it takes leaves a block of events that nothing else comes between. Whatever the
events say of the batch is read off from this.
-/

namespace LineDelivery

namespace Batch

/-- The batch after so many failed calls. -/
def after (batch : Batch) (failures : Nat) : Batch :=
  { batch with remaining := batch.remaining - failures }

variable (batch : Batch) (failures : Nat)

@[simp]
theorem after_zero : batch.after 0 = batch := rfl

@[simp]
theorem serial_after : (batch.after failures).serial = batch.serial := rfl

theorem after_succ :
    { batch.after failures with remaining := (batch.after failures).remaining - 1 } =
      batch.after (failures + 1) := rfl

end Batch

namespace Pipeline

namespace Event

/-- The batch that an event forms, sends, reports or finishes. -/
def subject? : Event → Option Batch
  | formed batch => some batch
  | called batch _ => some batch
  | answered batch _ _ => some batch
  | delivered batch _ => some batch
  | reported _ batch? _ => batch?
  | retrying batch _ _ _ => some batch
  | abandoned batch _ _ => some batch
  | expired batch _ => some batch
  | backlog (.removed item _) => some item.batch
  | crashed batch => some batch
  | _ => none

/-- The event is about this batch. -/
def Names (batch : Batch) (event : Event) : Prop :=
  ∃ named, event.subject? = some named ∧ named.serial = batch.serial

def calls (batch : Batch) : Event → Bool
  | called sent _ => sent.serial == batch.serial
  | _ => false

def answers (batch : Batch) : Event → Bool
  | answered sent _ _ => sent.serial == batch.serial
  | _ => false

def fails (batch : Batch) : Event → Bool
  | answered sent _ (some _) => sent.serial == batch.serial
  | _ => false

variable {batch : Batch} {event : Event}

attribute [local simp] subject? calls answers fails formed? finished?

theorem calls_eq_false (unnamed : ¬ event.Names batch) : event.calls batch = false := by
  cases event <;> simp_all [Names]

theorem answers_eq_false (unnamed : ¬ event.Names batch) : event.answers batch = false := by
  cases event <;> simp_all [Names]

theorem fails_eq_false (unnamed : ¬ event.Names batch) : event.fails batch = false := by
  cases event with
  | answered sent attempt error? => cases error? <;> simp_all [Names]
  | _ => rfl

theorem formed?_eq_none (unnamed : event.subject? = none) : event.formed? = none := by
  cases event <;> simp_all

theorem names_of_finished? {ended : Batch} (finished : event.finished? = some ended)
    (same : ended.serial = batch.serial) : event.Names batch := by
  refine ⟨ended, ?_, same⟩
  cases event with
  | backlog event => cases event <;> simp_all
  | _ => simp_all

end Event

/-- How often the batch was sent. -/
def callsOf (batch : Batch) (events : List Event) : Nat :=
  events.countP (Event.calls batch)

/-- How many calls for the batch came to an end. -/
def answersOf (batch : Batch) (events : List Event) : Nat :=
  events.countP (Event.answers batch)

/-- How many calls for the batch failed. -/
def failuresOf (batch : Batch) (events : List Event) : Nat :=
  events.countP (Event.fails batch)

section

variable (batch : Batch) (event : Event) (events older : List Event)

@[simp]
theorem callsOf_cons : callsOf batch (event :: events) =
    callsOf batch events + if event.calls batch then 1 else 0 :=
  List.countP_cons

@[simp]
theorem answersOf_cons : answersOf batch (event :: events) =
    answersOf batch events + if event.answers batch then 1 else 0 :=
  List.countP_cons

@[simp]
theorem failuresOf_cons : failuresOf batch (event :: events) =
    failuresOf batch events + if event.fails batch then 1 else 0 :=
  List.countP_cons

variable (setup : Setup) (error : DeliveryError) (sent : Batch) (attempt : Nat)

@[simp]
theorem callsOf_reports : callsOf batch (reports setup error sent attempt ++ older) =
    callsOf batch older := by
  unfold reports
  split <;> simp [Event.calls]

@[simp]
theorem answersOf_reports : answersOf batch (reports setup error sent attempt ++ older) =
    answersOf batch older := by
  unfold reports
  split <;> simp [Event.answers]

@[simp]
theorem failuresOf_reports : failuresOf batch (reports setup error sent attempt ++ older) =
    failuresOf batch older := by
  unfold reports
  split <;> simp [Event.fails]

end

/-- The number of the attempt after so many failures. -/
def attemptAfter (failures : Nat) : Nat :=
  min (failures + 1) (2 ^ 32 - 1)

inductive Stage where
  /-- Before the sending loop or in the backlog, after so many failed calls. -/
  | waiting (failures : Nat)
  | calling (failures : Nat)
  | finished
  deriving DecidableEq, Repr

/-- A turn that a batch takes after some older events, and the block of events that it leaves. -/
inductive Turn (setup : Setup) (batch : Batch) (older : List Event) :
    Stage → List Event → Stage → Prop
  | call {failures : Nat} :
      Turn setup batch older (.waiting failures)
        [.called (batch.after failures) (attemptAfter failures)] (.calling failures)
  | deliver {failures : Nat} :
      Turn setup batch older (.calling failures)
        [.delivered (batch.after failures) (attemptAfter failures), .backoffReset,
          .answered (batch.after failures) (attemptAfter failures) none] .finished
  | abandon {failures : Nat} (error : DeliveryError)
      (final : (setup.wantsRetry (askedIn older) error && failures < batch.remaining) = false) :
      Turn setup batch older (.calling failures)
        (.abandoned (batch.after failures) (attemptAfter failures) error ::
          (reports setup error (batch.after failures) (attemptAfter failures) ++
            [.answered (batch.after failures) (attemptAfter failures) (some error)])) .finished
  | retry {failures : Nat} (error : DeliveryError) (delay : Nat)
      (wanted : setup.wantsRetry (askedIn older) error) (left : failures < batch.remaining) :
      Turn setup batch older (.calling failures)
        (.retrying (batch.after failures) (attemptAfter failures) error delay ::
          .delayed error (attemptAfter failures) delay ::
          (reports setup error (batch.after failures) (attemptAfter failures) ++
            [.answered (batch.after failures) (attemptAfter failures) (some error)]))
        (.waiting (failures + 1))
  | expire {failures : Nat} :
      Turn setup batch older (.waiting failures)
        (reports setup .maxRetryTimeExceeded (batch.after failures) (attemptAfter failures) ++
          [.expired (batch.after failures) (attemptAfter failures)]) .finished
  | remove {failures : Nat} (item : Backlog.Item) (limit : Nat)
      (same : item.batch = batch.after failures) :
      Turn setup batch older (.waiting failures) [.backlog (.removed item limit)] .finished
  | crash {failures : Nat} :
      Turn setup batch older (.calling failures) [.crashed (batch.after failures)] .finished

/-- The events, as far as they are about the batch, and the stage it has come to. -/
inductive Life (setup : Setup) (batch : Batch) : List Event → Stage → Prop
  | formed {older : List Event} (unnamed : ∀ event ∈ older, ¬ event.Names batch) :
      Life setup batch (.formed batch :: older) (.waiting 0)
  | other {older : List Event} {stage : Stage} {event : Event} (life : Life setup batch older stage)
      (unnamed : ¬ event.Names batch) : Life setup batch (event :: older) stage
  | turn {older block : List Event} {before after : Stage} (life : Life setup batch older before)
      (turn : Turn setup batch older before block after) : Life setup batch (block ++ older) after

/-! ## Where an event of a life comes from -/

/-- An event of an append is in one part or in the other. -/
theorem suffix_append_cases {event : Event} {older block oldest : List Event}
    (there : event :: older <:+ block ++ oldest) :
    (∃ newer, event :: newer <:+ block ∧ older = newer ++ oldest) ∨ event :: older <:+ oldest := by
  induction block with
  | nil => exact .inr there
  | cons first block ih =>
    rcases List.suffix_cons_iff.mp there with whole | behind
    · obtain ⟨rfl, rfl⟩ := List.cons.inj whole
      exact .inl ⟨block, List.suffix_rfl, rfl⟩
    · rcases ih behind with ⟨newer, inside, rfl⟩ | inside
      · exact .inl ⟨newer, inside.trans (List.suffix_cons _ _), rfl⟩
      · exact .inr inside

theorem suffix_reports_append {setup : Setup} {error : DeliveryError} {batch : Batch} {attempt : Nat}
    {event : Event} {older oldest : List Event} :
    event :: older <:+ reports setup error batch attempt ++ oldest ↔
      (setup.verdict?.isSome ∧ event = .reported error (some batch) attempt ∧ older = oldest) ∨
        event :: older <:+ oldest := by
  unfold reports
  split
  · next registered => simp [registered, List.suffix_cons_iff]
  · next unregistered => simp [unregistered]

theorem forall_mem_reports {setup : Setup} {error : DeliveryError} {batch : Batch} {attempt : Nat}
    {p : Event → Prop} : (∀ event ∈ reports setup error batch attempt, p event) ↔
      (setup.verdict?.isSome → p (.reported error (some batch) attempt)) := by
  unfold reports
  split <;> simp_all

/-- All events of a turn that name a batch name this one, as it is after some failures. -/
theorem Turn.eq_after {setup : Setup} {batch : Batch} {older block : List Event}
    {before after : Stage} (turn : Turn setup batch older before block after) :
    ∀ event ∈ block, ∀ named, event.subject? = some named →
      ∃ failures, named = batch.after failures := by
  cases turn with
  | remove item limit same => simp [Event.subject?, same]
  | _ =>
    simp only [List.forall_mem_cons, List.forall_mem_append, forall_mem_reports]
    simp [Event.subject?]

/-- A turn forms no batch. -/
theorem Turn.formedIn_append {setup : Setup} {batch : Batch} {older block : List Event}
    {before after : Stage} (turn : Turn setup batch older before block after)
    (oldest : List Event) : formedIn (block ++ oldest) = formedIn oldest := by
  cases turn <;> simp [Event.formed?]

/-- What is reported at once when a batch is over. -/
def aftermath (setup : Setup) : Event → List Event
  | .expired named attempt => reports setup .maxRetryTimeExceeded named attempt
  | _ => []

/-- A turn that finishes the batch ends with the event that says so, but for the report of its
expiry. -/
theorem Turn.eq_of_finished {setup : Setup} {batch : Batch} {older block newer : List Event}
    {before after : Stage} (turn : Turn setup batch older before block after) {event : Event}
    (inside : event :: newer <:+ block) {ended : Batch} (finished : event.finished? = some ended) :
    after = .finished ∧ block = aftermath setup event ++ event :: newer := by
  cases turn with
  | deliver =>
    simp only [List.suffix_cons_iff, List.cons.injEq, List.suffix_nil, reduceCtorEq, or_false] at inside
    rcases inside with ⟨rfl, rfl⟩ | ⟨rfl, _⟩ | ⟨rfl, _⟩
    · exact ⟨rfl, rfl⟩
    · simp [Event.finished?] at finished
    · simp [Event.finished?] at finished
  | abandon =>
    simp only [List.suffix_cons_iff, suffix_reports_append, List.cons.injEq, List.suffix_nil,
      reduceCtorEq, or_false] at inside
    rcases inside with ⟨rfl, rfl⟩ | ⟨_, rfl, _⟩ | ⟨rfl, _⟩
    · exact ⟨rfl, rfl⟩
    · simp [Event.finished?] at finished
    · simp [Event.finished?] at finished
  | expire =>
    simp only [List.suffix_cons_iff, suffix_reports_append, List.cons.injEq, List.suffix_nil,
      reduceCtorEq, or_false] at inside
    rcases inside with ⟨_, rfl, _⟩ | ⟨rfl, rfl⟩
    · simp [Event.finished?] at finished
    · exact ⟨rfl, rfl⟩
  | remove =>
    simp only [List.suffix_cons_iff, List.cons.injEq, List.suffix_nil, reduceCtorEq, or_false] at inside
    obtain ⟨rfl, rfl⟩ := inside
    exact ⟨rfl, rfl⟩
  | retry =>
    simp only [List.suffix_cons_iff, suffix_reports_append, List.cons.injEq, List.suffix_nil,
      reduceCtorEq, or_false] at inside
    rcases inside with ⟨rfl, _⟩ | ⟨rfl, _⟩ | ⟨_, rfl, _⟩ | ⟨rfl, _⟩ <;>
      simp [Event.finished?] at finished
  | call | crash =>
    simp only [List.suffix_cons_iff, List.cons.injEq, List.suffix_nil, reduceCtorEq, or_false] at inside
    simp [inside.1, Event.finished?] at finished

namespace Life

variable {setup : Setup} {batch : Batch} {events older : List Event} {event : Event} {stage : Stage}

/-- An event about the batch is the one that forms it, or belongs to one of its turns. -/
theorem turn_of_suffix (life : Life setup batch events stage) (there : event :: older <:+ events)
    (names : event.Names batch) :
    (event = .formed batch ∧ ∀ event ∈ older, ¬ event.Names batch) ∨
      ∃ oldest before block after newer, Life setup batch oldest before ∧
        Turn setup batch oldest before block after ∧ block ++ oldest <:+ events ∧
        event :: newer <:+ block ∧ older = newer ++ oldest := by
  induction life with
  | formed unnamed =>
    rcases List.suffix_cons_iff.mp there with whole | behind
    · obtain ⟨rfl, rfl⟩ := List.cons.inj whole
      exact .inl ⟨rfl, unnamed⟩
    · exact absurd names (unnamed event (behind.subset List.mem_cons_self))
  | other life unnamed ih =>
    rcases List.suffix_cons_iff.mp there with whole | behind
    · obtain ⟨rfl, rfl⟩ := List.cons.inj whole
      exact absurd names unnamed
    · rcases ih behind with first | ⟨oldest, before, block, after, newer, start, turn, within, inside⟩
      · exact .inl first
      · exact .inr ⟨oldest, before, block, after, newer, start, turn,
          within.trans (List.suffix_cons _ _), inside⟩
  | @turn oldest block before after life turn ih =>
    rcases suffix_append_cases there with ⟨newer, inside, rfl⟩ | behind
    · exact .inr ⟨oldest, before, block, after, newer, life, turn, List.suffix_rfl, inside, rfl⟩
    · rcases ih behind with first | ⟨oldest, before, block, after, newer, start, turn, within, inside⟩
      · exact .inl first
      · exact .inr ⟨oldest, before, block, after, newer, start, turn,
          within.trans (List.suffix_append _ _), inside⟩

theorem formed_mem (life : Life setup batch events stage) : .formed batch ∈ events := by
  induction life with
  | formed unnamed => exact List.mem_cons_self
  | other life unnamed ih => exact List.mem_cons_of_mem _ ih
  | turn life turn ih => exact List.mem_append_right _ ih

/-- Before it was formed, no event named the batch. -/
theorem not_names_of_not_formed (life : Life setup batch events stage) (past : older <:+ events)
    (fresh : .formed batch ∉ older) : ∀ event ∈ older, ¬ event.Names batch := by
  intro event there names
  obtain ⟨newest, rest, split⟩ := List.append_of_mem there
  have suffix : event :: rest <:+ older := split ▸ List.suffix_append _ _
  rcases life.turn_of_suffix (suffix.trans past) names with
    ⟨rfl, _⟩ | ⟨oldest, before, block, after, newer, start, _, _, _, rfl⟩
  · exact fresh there
  · exact fresh (by simp [split, start.formed_mem])

/-! ## Counting -/

/-- At each stage, what the events count of calls, their ends and their failures. -/
def Counted (batch : Batch) (events : List Event) : Stage → Prop
  | .waiting failures => failures ≤ batch.remaining ∧ callsOf batch events = failures ∧
      answersOf batch events = failures ∧ failuresOf batch events = failures
  | .calling failures => failures ≤ batch.remaining ∧ callsOf batch events = failures + 1 ∧
      answersOf batch events = failures ∧ failuresOf batch events = failures
  | .finished => callsOf batch events ≤ batch.remaining + 1

theorem counted (life : Life setup batch events stage) : Counted batch events stage := by
  induction life with
  | formed unnamed =>
    refine ⟨Nat.zero_le _, ?_, ?_, ?_⟩
    all_goals
      refine List.countP_eq_zero.mpr fun event there ↦ ?_
      rcases List.mem_cons.mp there with rfl | there
      · simp [Event.calls, Event.answers, Event.fails]
      · simp [Event.calls_eq_false, Event.answers_eq_false, Event.fails_eq_false, unnamed event there]
  | other life unnamed ih =>
    unfold Counted at ih ⊢
    simpa [Event.calls_eq_false unnamed, Event.answers_eq_false unnamed,
      Event.fails_eq_false unnamed] using ih
  | turn life turn ih =>
    cases turn <;> simp_all [Counted, Event.calls, Event.answers, Event.fails] <;> omega

/-! ## What a life looks like -/

/-- Whatever names the batch names it as it was formed, but for the retries it has left. -/
theorem eq_after (life : Life setup batch events stage) {named : Batch} (there : event ∈ events)
    (subject : event.subject? = some named) (same : named.serial = batch.serial) :
    ∃ failures, named = batch.after failures := by
  obtain ⟨newest, older, rfl⟩ := List.append_of_mem there
  have split : event :: older <:+ newest ++ event :: older := List.suffix_append _ _
  rcases life.turn_of_suffix split ⟨named, subject, same⟩ with
    ⟨rfl, _⟩ | ⟨oldest, before, block, after, newer, start, turn, _, inside, _⟩
  · exact ⟨0, (Option.some.inj subject).symm⟩
  · exact turn.eq_after event (inside.subset List.mem_cons_self) named subject

/-- A call for the batch begins while it waits. -/
theorem called (life : Life setup batch events stage) {sent : Batch} {attempt : Nat}
    (there : .called sent attempt :: older <:+ events) (same : sent.serial = batch.serial) :
    ∃ failures, Life setup batch older (.waiting failures) := by
  rcases life.turn_of_suffix there ⟨sent, rfl, same⟩ with
    ⟨impossible, _⟩ | ⟨oldest, before, block, after, newer, start, turn, _, inside, rfl⟩
  · simp at impossible
  · cases turn with
    | @call failures =>
      obtain ⟨_, rfl⟩ : _ ∧ newer = [] := by simpa [List.suffix_cons_iff] using inside
      exact ⟨failures, start⟩
    | _ => simp [List.suffix_cons_iff, suffix_reports_append] at inside

/-- A failed call for the batch counts the failures, is reported, and ends in a retry or in giving
the batch up, as the verdict and the retries left say. -/
theorem failed (life : Life setup batch events stage) {sent : Batch} {attempt : Nat}
    {error : DeliveryError} (there : .answered sent attempt (some error) :: older <:+ events)
    (same : sent.serial = batch.serial) :
    ∃ failures, Life setup batch older (.calling failures) ∧ attempt = attemptAfter failures ∧
      if setup.wantsRetry (askedIn older) error ∧ failures < batch.remaining then
        ∃ delay, .retrying sent attempt error delay :: .delayed error attempt delay ::
          (reports setup error sent attempt ++
            .answered sent attempt (some error) :: older) <:+ events
      else
        .abandoned sent attempt error :: (reports setup error sent attempt ++
          .answered sent attempt (some error) :: older) <:+ events := by
  rcases life.turn_of_suffix there ⟨sent, rfl, same⟩ with
    ⟨impossible, _⟩ | ⟨oldest, before, block, after, newer, start, turn, within, inside, rfl⟩
  · simp at impossible
  · cases turn with
    | @abandon failures error' final =>
      obtain ⟨⟨rfl, rfl, rfl⟩, rfl⟩ : (sent = _ ∧ attempt = _ ∧ error = _) ∧ newer = [] := by
        simpa [List.suffix_cons_iff, suffix_reports_append] using inside
      refine ⟨failures, start, rfl, ?_⟩
      rw [if_neg (by simpa using final)]
      simpa using within
    | @retry failures error' delay wanted left =>
      obtain ⟨⟨rfl, rfl, rfl⟩, rfl⟩ : (sent = _ ∧ attempt = _ ∧ error = _) ∧ newer = [] := by
        simpa [List.suffix_cons_iff, suffix_reports_append] using inside
      refine ⟨failures, start, rfl, ?_⟩
      rw [if_pos ⟨by simpa using wanted, left⟩]
      exact ⟨delay, by simpa using within⟩
    | _ => simp [List.suffix_cons_iff, suffix_reports_append] at inside

/-- The handler is called for the batch right after a failed call or when its time is over. -/
theorem reported (life : Life setup batch events stage) {named : Batch} {attempt : Nat}
    {error : DeliveryError} (there : .reported error (some named) attempt :: older <:+ events)
    (same : named.serial = batch.serial) :
    (∃ oldest, older = .answered named attempt (some error) :: oldest) ∨
      error = .maxRetryTimeExceeded ∧ ∃ oldest, older = .expired named attempt :: oldest := by
  rcases life.turn_of_suffix there ⟨named, rfl, same⟩ with
    ⟨impossible, _⟩ | ⟨oldest, before, block, after, newer, start, turn, _, inside, rfl⟩
  · simp at impossible
  · cases turn with
    | @abandon failures error' final =>
      obtain ⟨_, ⟨rfl, rfl, rfl⟩, rfl⟩ : _ ∧ (error = _ ∧ named = _ ∧ attempt = _) ∧ newer = _ := by
        simpa [List.suffix_cons_iff, suffix_reports_append] using inside
      exact .inl ⟨oldest, rfl⟩
    | @retry failures error' delay wanted left =>
      obtain ⟨_, ⟨rfl, rfl, rfl⟩, rfl⟩ : _ ∧ (error = _ ∧ named = _ ∧ attempt = _) ∧ newer = _ := by
        simpa [List.suffix_cons_iff, suffix_reports_append] using inside
      exact .inl ⟨oldest, rfl⟩
    | @expire failures =>
      obtain ⟨_, ⟨rfl, rfl, rfl⟩, rfl⟩ : _ ∧ (error = _ ∧ named = _ ∧ attempt = _) ∧ newer = _ := by
        simpa [List.suffix_cons_iff, suffix_reports_append] using inside
      exact .inr ⟨rfl, oldest, rfl⟩
    | _ => simp [List.suffix_cons_iff] at inside

theorem expired (life : Life setup batch events stage) {named : Batch} {attempt : Nat}
    (there : .expired named attempt :: older <:+ events) (same : named.serial = batch.serial) :
    ∃ failures, Life setup batch older (.waiting failures) ∧ attempt = attemptAfter failures ∧
      reports setup .maxRetryTimeExceeded named attempt ++ .expired named attempt :: older <:+
        events := by
  rcases life.turn_of_suffix there ⟨named, rfl, same⟩ with
    ⟨impossible, _⟩ | ⟨oldest, before, block, after, newer, start, turn, within, inside, rfl⟩
  · simp at impossible
  · cases turn with
    | @expire failures =>
      obtain ⟨⟨rfl, rfl⟩, rfl⟩ : (named = _ ∧ attempt = _) ∧ newer = [] := by
        simpa [List.suffix_cons_iff, suffix_reports_append] using inside
      exact ⟨failures, start, rfl, by simpa using within⟩
    | _ => simp [List.suffix_cons_iff, suffix_reports_append] at inside

/-- As long as a batch is not over, all its failed calls were followed by a retry. -/
theorem wanted (life : Life setup batch events stage) (lives : stage ≠ .finished) {sent : Batch}
    {attempt : Nat} {error : DeliveryError}
    (there : .answered sent attempt (some error) :: older <:+ events)
    (same : sent.serial = batch.serial) :
    setup.wantsRetry (askedIn older) error ∧ failuresOf batch older < batch.remaining := by
  induction life with
  | formed unnamed =>
    rcases List.suffix_cons_iff.mp there with whole | behind
    · simp at whole
    · exact absurd ⟨sent, rfl, same⟩ (unnamed _ (behind.subset List.mem_cons_self))
  | other life unnamed ih =>
    rcases List.suffix_cons_iff.mp there with whole | behind
    · obtain ⟨rfl, rfl⟩ := List.cons.inj whole
      exact absurd ⟨sent, rfl, same⟩ unnamed
    · exact ih lives behind
  | @turn oldest block before after life turn ih =>
    rcases suffix_append_cases there with ⟨newer, inside, rfl⟩ | behind
    · cases turn with
      | @retry failures error' delay wanted left =>
        obtain ⟨⟨_, _, rfl⟩, rfl⟩ : (sent = _ ∧ attempt = _ ∧ error = _) ∧ newer = [] := by
          simpa [List.suffix_cons_iff, suffix_reports_append] using inside
        obtain ⟨_, _, _, count⟩ := life.counted
        exact ⟨wanted, by rwa [List.nil_append, count]⟩
      | abandon => exact absurd rfl lives
      | _ => simp [List.suffix_cons_iff, suffix_reports_append] at inside
    · exact ih (by cases turn <;> simp) behind

/-- After the end of a batch, but for the report of its expiry, no event names it. -/
theorem silent (life : Life setup batch events stage) {ended : Batch}
    (there : event :: older <:+ events) (finished : event.finished? = some ended)
    (same : ended.serial = batch.serial) :
    stage = .finished ∧ ∃ newer, events = newer ++ (aftermath setup event ++ event :: older) ∧
      ∀ event ∈ newer, ¬ event.Names batch := by
  have names := Event.names_of_finished? finished same
  induction life with
  | formed unnamed =>
    rcases List.suffix_cons_iff.mp there with whole | behind
    · obtain ⟨rfl, rfl⟩ := List.cons.inj whole
      simp [Event.finished?] at finished
    · exact absurd names (unnamed event (behind.subset List.mem_cons_self))
  | @other oldest stage latest life unnamed ih =>
    rcases List.suffix_cons_iff.mp there with whole | behind
    · obtain ⟨rfl, rfl⟩ := List.cons.inj whole
      exact absurd names unnamed
    · obtain ⟨isFinished, newer, rfl, quiet⟩ := ih behind
      exact ⟨isFinished, latest :: newer, rfl, List.forall_mem_cons.mpr ⟨unnamed, quiet⟩⟩
  | @turn oldest block before after life turn ih =>
    rcases suffix_append_cases there with ⟨newer, inside, rfl⟩ | behind
    · obtain ⟨isFinished, rfl⟩ := turn.eq_of_finished inside finished
      exact ⟨isFinished, [], by simp, by simp⟩
    · obtain ⟨rfl, _⟩ := ih behind
      cases turn

end Life

end Pipeline

end LineDelivery
