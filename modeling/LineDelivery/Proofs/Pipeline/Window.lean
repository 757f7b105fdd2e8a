import LineDelivery.Proofs.Pipeline.Handling
import LineDelivery.Proofs.Pipeline.Timing

/-!
# The time window of a batch

A batch is sent only before its expiry, which is fixed when it is formed, and after a failed call
only when the delay is over or a flush was called. Once the expiry has come, the batch is reported
as soon as it comes up, and never again.
-/

namespace LineDelivery.Pipeline

/-- The batch is the next thing that the sending loop takes up. -/
structure State.ComesUp (s : State) (batch : Batch) : Prop where
  idle : s.sending = .idle
  opened : s.closing = false
  next : (∃ rest, s.retryQueue = batch :: rest) ∨
    s.retryQueue = [] ∧ ∃ rest, s.batchQueue = .batch batch :: rest

/-- What holds at every moment of the times of a batch that was formed at some instant. -/
structure KeepsTime (setup : Setup) (batch : Batch) (formedAt : Nat) (s : State) : Prop where
  expires : batch.expires = Time.deadline formedAt setup.maxRetryTime
  /-- The expiry never changes, neither in what happens to the batch nor where it is. -/
  unchanged : (∀ event ∈ s.events, ∀ named, event.subject? = some named →
      named.serial = batch.serial → named.expires = batch.expires) ∧
    ∀ held ∈ s.ledger.batches, held.serial = batch.serial → held.expires = batch.expires
  called : ∀ now sent attempt, (now, .called sent attempt) ∈ s.history →
    sent.serial = batch.serial → now < batch.expires
  /-- Between a failed call and a later one the backoff was asked, and its delay is over, unless the
  retries were let go. -/
  putOff : ∀ calledAt next number between failedAt sent attempt error older,
    (calledAt, .called next number) ::
      (between ++ (failedAt, .answered sent attempt (some error)) :: older) <:+ s.history →
    next.serial = batch.serial → sent.serial = batch.serial →
      ∃ delay newer, between = newer ++ (failedAt, .retrying sent attempt error delay) ::
          (failedAt, .delayed error attempt delay) ::
            (reports setup error sent attempt).map (fun event ↦ (failedAt, event)) ∧
        (failedAt + delay < Time.horizon →
          (∀ entry ∈ newer, ∀ released, entry.2 ≠ .flushing released) →
            failedAt + delay ≤ calledAt)
  /-- If the batch comes up too late, the sending loop drops and reports it, and that was all. -/
  lapsed : ∀ held, s.ComesUp held → held.serial = batch.serial → batch.expires ≤ s.now →
    (∀ named attempt, .expired named attempt ∈ s.events → named.serial ≠ batch.serial) ∧
      ∃ t, s.step? setup .sending = some t ∧ ∀ u, Runs setup t u →
        ∃ newer, u.events = newer ++
            (reports setup .maxRetryTimeExceeded held (State.attemptOf setup held) ++
              .expired held (State.attemptOf setup held) :: s.events) ∧
          ∀ event ∈ newer, ¬ event.Names batch

section

variable {setup : Setup} {s : State} {batch : Batch} {stage : Stage}

theorem State.ComesUp.waits {held : Batch} (up : s.ComesUp held) : held ∈ s.ledger.waiting := by
  rw [State.mem_waiting]
  rcases up.next with ⟨rest, first⟩ | ⟨_, rest, first⟩
  · exact .inr (.inr (.inl (first ▸ List.mem_cons_self)))
  · exact .inl (first ▸ List.mem_cons_self)

/-- A batch whose time is over is dropped and reported. -/
theorem State.TakenUp.events_of_late {t : State} (taken : State.TakenUp setup s batch t)
    (late : batch.expires ≤ s.now) :
    t.events = reports setup .maxRetryTimeExceeded batch (State.attemptOf setup batch) ++
      .expired batch (State.attemptOf setup batch) :: s.events := by
  have expired : batch.hasExpired s.now := decide_eq_true late
  cases taken with
  | expired => simp [State.events]
  | called inTime => simp [expired] at inTime

/-- That is the only thing that the sending loop does when such a batch comes up. -/
theorem State.ComesUp.expires (up : s.ComesUp batch) (setup : Setup)
    (late : batch.expires ≤ s.now) : ∃ t, s.step? setup .sending = some t ∧
      t.events = reports setup .maxRetryTimeExceeded batch (State.attemptOf setup batch) ++
        .expired batch (State.attemptOf setup batch) :: s.events := by
  rcases up.next with ⟨rest, first⟩ | ⟨noRetry, rest, first⟩
  · refine ⟨{ s with retryQueue := rest }.takeUp setup batch, ?_,
      (State.takenUp_takeUp { s with retryQueue := rest } batch).events_of_late late⟩
    simp [State.step?, State.sending?, State.nextParcel?, up.idle, up.opened, first]
  · refine ⟨{ s with batchQueue := rest }.takeUp setup batch, ?_,
      (State.takenUp_takeUp { s with batchQueue := rest } batch).events_of_late late⟩
    simp [State.step?, State.sending?, State.nextParcel?, up.idle, up.opened, noRetry, first]

/-- Between a failed call of a batch and a later one lies the retry that the failure led to. -/
theorem Life.exists_retrying {events : List Event} (life : Life setup batch events stage)
    {next sent : Batch} {number attempt : Nat} {error : DeliveryError} {between older : List Event}
    (called : .called next number :: (between ++ .answered sent attempt (some error) :: older) <:+
      events) (sameNext : next.serial = batch.serial) (sameSent : sent.serial = batch.serial) :
    ∃ delay newer, between = newer ++ .retrying sent attempt error delay ::
      .delayed error attempt delay :: reports setup error sent attempt := by
  have behind := List.suffix_append between (.answered sent attempt (some error) :: older)
  have there := (behind.trans (List.suffix_cons _ _)).trans called
  obtain ⟨failures, before, _, ending⟩ := life.failed there sameSent
  obtain ⟨_, waiting⟩ := life.called called sameNext
  obtain ⟨wanted, left⟩ := waiting.wanted (by simp) behind sameSent
  rw [before.counted.2.2.2] at left
  rw [if_pos ⟨wanted, left⟩] at ending
  obtain ⟨delay, follows⟩ := ending
  refine ⟨delay, ?_⟩
  -- The block of the failure has no call, so it lies behind the later one.
  have within : .retrying sent attempt error delay :: .delayed error attempt delay ::
      (reports setup error sent attempt ++ .answered sent attempt (some error) :: older) <:+
        between ++ .answered sent attempt (some error) :: older := by
    rcases List.suffix_or_suffix_of_suffix follows called with inside | outside
    · rcases List.suffix_cons_iff.mp inside with whole | inside
      · simp at whole
      · exact inside
    · simp only [List.suffix_cons_iff, suffix_reports_append, List.cons.injEq, reduceCtorEq,
        false_and, and_false, false_or] at outside
      have shorter := outside.length_le
      simp only [List.length_cons, List.length_append] at shorter
      omega
  obtain ⟨newer, split⟩ := within
  refine ⟨newer, ?_⟩
  rw [← List.append_cancel_right_eq _ (.answered sent attempt (some error) :: older)]
  simpa using split.symm

/-- The retry that a failure led to has the instant of the failure, and so does all in between. -/
theorem Timed.exists_retrying {history older between : List (Nat × Event)} {newest : Nat × Event}
    (timed : Timed setup history) {sent : Batch} {attempt failedAt delay : Nat}
    {error : DeliveryError} {newer : List Event}
    (there : newest :: (between ++ (failedAt, .answered sent attempt (some error)) :: older) <:+
      history)
    (split : between.map Prod.snd = newer ++ .retrying sent attempt error delay ::
      .delayed error attempt delay :: reports setup error sent attempt) :
    ∃ later, between = later ++ (failedAt, .retrying sent attempt error delay) ::
      (failedAt, .delayed error attempt delay) ::
        (reports setup error sent attempt).map fun event ↦ (failedAt, event) := by
  obtain ⟨later, rest, rfl, _, isBlock⟩ := List.map_eq_append_iff.mp split
  obtain ⟨⟨now, event⟩, block, rfl, same, isRest⟩ := List.map_eq_cons_iff.mp isBlock
  obtain rfl : event = .retrying sent attempt error delay := same
  have retried : (now, .retrying sent attempt error delay) :: (block ++
      (failedAt, .answered sent attempt (some error)) :: older) <:+ history := by
    refine List.IsSuffix.trans ?_ there
    rw [List.append_assoc]
    exact (List.suffix_append _ _).trans (List.suffix_cons _ _)
  obtain ⟨oldest, behind⟩ := timed.inTime retried
  have long : block.length = ((now, .delayed error attempt delay) ::
      (reports setup error sent attempt).map fun event ↦ (now, event)).length := by
    simpa using congrArg List.length isRest
  obtain ⟨rfl, failed⟩ := List.append_inj behind long
  obtain ⟨atOnce, _⟩ := List.cons.inj failed
  obtain rfl : failedAt = now := congrArg Prod.fst atOnce
  exact ⟨later, rfl⟩

namespace Reachable

theorem exists_life (reachable : Reachable setup s) (formed : .formed batch ∈ s.events) :
    ∃ stage, Life setup batch s.events stage ∧ s.ledger.Stands batch stage :=
  reachable.lived.lives batch (mem_formedIn.mpr formed)

/-- In every run, whatever the transport, the handler and the backoff answer, a batch keeps its
times. -/
theorem keepsTime_of_formed (reachable : Reachable setup s) {formedAt : Nat}
    (formed : (formedAt, .formed batch) ∈ s.history) : KeepsTime setup batch formedAt s := by
  have timed := reachable.punctual.timed
  obtain ⟨stage, life, stands⟩ := reachable.exists_life (List.mem_map_of_mem formed)
  have expires : ∀ event ∈ s.events, ∀ named, event.subject? = some named →
      named.serial = batch.serial → named.expires = batch.expires := by
    intro event there named subject same
    obtain ⟨failures, rfl⟩ := life.eq_after there subject same
    rfl
  have inTime : ∀ now sent attempt older, (now, .called sent attempt) :: older <:+ s.history →
      sent.serial = batch.serial → now < batch.expires ∧ notBefore batch older ≤ now := by
    intro now sent attempt older there same
    have eq := expires _ (List.mem_map_of_mem (there.subset List.mem_cons_self)) sent rfl same
    rw [← eq, ← notBefore_congr same eq]
    exact timed.inTime there
  constructor
  case expires =>
    obtain ⟨newer, older, split⟩ := List.append_of_mem formed
    exact timed.inTime (split ▸ List.suffix_append newer ((formedAt, .formed batch) :: older))
  case unchanged =>
    refine ⟨expires, fun held there same ↦ ?_⟩
    rcases Multiset.mem_add.mp there with sending | waits
    · obtain ⟨call, busy, rfl⟩ : ∃ call, s.sending = .calling call ∧ call.batch = held :=
        State.batch?_sending_eq_some.mp (Option.mem_toList.mp (Multiset.mem_coe.mp sending))
      obtain ⟨failures, _, isAfter, _⟩ := stands.calling call busy same
      exact isAfter ▸ rfl
    · obtain ⟨failures, _, isAfter⟩ := stands.waiting held waits same
      exact isAfter ▸ rfl
  case called =>
    intro now sent attempt there same
    obtain ⟨newer, older, split⟩ := List.append_of_mem there
    exact (inTime now sent attempt older (split ▸ List.suffix_append _ _) same).1
  case putOff =>
    intro calledAt next number between failedAt sent attempt error older there sameNext sameSent
    have events : .called next number :: (between.map Prod.snd ++
        .answered sent attempt (some error) :: older.map Prod.snd) <:+ s.events := by
      simpa [State.events] using there.map Prod.snd
    obtain ⟨delay, newer, split⟩ := life.exists_retrying events sameNext sameSent
    obtain ⟨later, rfl⟩ := timed.exists_retrying there split
    refine ⟨delay, later, rfl, fun representable held ↦ ?_⟩
    obtain ⟨early, late⟩ := inTime calledAt next number _ there sameNext
    rw [List.append_assoc] at late
    have putOff := (le_notBefore sameSent held).trans late
    rw [Time.deadline_eq representable] at putOff
    omega
  case lapsed =>
    intro held up same late
    obtain ⟨failures, isWaiting, rfl⟩ := stands.waiting held up.waits same
    refine ⟨?_, ?_⟩
    · intro named attempt there sameNamed
      obtain ⟨newer, older, split⟩ := List.append_of_mem there
      have finished := (life.silent (split ▸ List.suffix_append newer _) rfl sameNamed).1
      simp [isWaiting] at finished
    · obtain ⟨t, taken, events⟩ := up.expires setup late
      refine ⟨t, taken, fun u runs ↦ ?_⟩
      have atStep := reachable.move (.step .sending taken)
      have suffix : t.events <:+ u.events := Ledger.Steps.suffix (atStep.steps_of_runs runs)
      have there : .expired (batch.after failures) (State.attemptOf setup (batch.after failures)) ::
          s.events <:+ u.events :=
        (List.suffix_append _ _).trans (events ▸ suffix)
      obtain ⟨_, later, _⟩ := (atStep.runs runs).exists_life (there.subset
        (List.mem_cons_of_mem _ (List.mem_map_of_mem formed)))
      exact (later.silent there rfl rfl).2

end Reachable

end

/-- The transport that refuses everything, with half a second for each batch. -/
def Setup.brief : Setup :=
  { Setup.refusing with options := { batchSize := 1, maxRetries := 1, maxRetryTime := 500 } }

/-- A refused batch is to be sent again after a second, but comes up when its half second is
over. -/
def State.overdue : State :=
  takeTurns .brief 1 .client
    { { start .brief with requests := [.line [65]] }.settle .brief with now := 500000000 }

theorem keepsTime_overdue :
    ∃ batch held, State.overdue.ComesUp held ∧ held.serial = batch.serial ∧
      batch.expires ≤ State.overdue.now ∧ KeepsTime .brief batch 0 State.overdue := by
  refine ⟨{ serial := 0, chunks := [[65, 10]], remaining := 1, expires := 500000000 },
    { serial := 0, chunks := [[65, 10]], remaining := 0, expires := 500000000 },
    ⟨by decide +kernel, by decide +kernel, .inl ⟨[], by decide +kernel⟩⟩, rfl, by decide +kernel,
    Reachable.keepsTime_of_formed ?_ (by decide +kernel)⟩
  apply (Reachable.start rfl).runs
  exact (State.settle_ask_runs _ rfl).trans
    (.head (.pass 500000000 (by decide +kernel)) (State.takeTurns_runs 1 .client))

end LineDelivery.Pipeline
