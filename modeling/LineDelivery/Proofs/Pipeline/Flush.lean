import LineDelivery.Proofs.Pipeline.Barrier
import LineDelivery.Proofs.Pipeline.Lifetimes

/-!
# A flush is complete

When a flush returns, every chunk accepted before it, and every batch that was in the backlog when it
began, has been handled by the sending loop since: its call has ended, or its time was over and that
was reported. Nothing of it is left before the sending loop.
-/

namespace LineDelivery.Pipeline

/-- An item of the flattened lists is in one of them. -/
theorem exists_append_of_flatMap_eq {α β : Type} {f : α → List β} {items : List α}
    {before after : List β} {item : β} (split : items.flatMap f = before ++ item :: after) :
    ∃ older holder newer front back, items = older ++ holder :: newer ∧
      f holder = front ++ item :: back ∧ older.flatMap f ++ front = before := by
  induction items generalizing before with
  | nil => simp at split
  | cons first items ih =>
    rw [List.flatMap_cons] at split
    rcases List.append_eq_append_iff.mp split with ⟨rest, rfl, behind⟩ | ⟨front, inside, behind⟩
    · obtain ⟨older, holder, newer, front, back, rfl, holds, rfl⟩ := ih behind
      exact ⟨first :: older, holder, newer, front, back, rfl, holds, by simp⟩
    · cases front with
      | nil =>
        have rest : items.flatMap f = [] ++ item :: after := behind.symm
        obtain ⟨older, holder, newer, front, back, rfl, holds, none⟩ := ih rest
        refine ⟨first :: older, holder, newer, front, back, rfl, holds, ?_⟩
        rw [List.flatMap_cons, List.append_assoc, none, inside]
        simp
      | cons same front =>
        obtain ⟨rfl, rfl⟩ := List.cons.inj behind
        exact ⟨[], first, items, before, front, rfl, inside, rfl⟩

namespace Ledger

variable {setup : Setup} {l m : Ledger} {batch : Batch}

/-- A batch that holds a chunk was formed after the chunk was accepted. -/
theorem not_formed_of_accepted (accounted : Accounted setup m) (inOrder : m.CutInOrder)
    (whole : m.torn = false) {chunk : Bytes} {older newer : List Event}
    (there : m.events = newer ++ .accepted chunk :: older) {before : List Batch}
    {front back : List Bytes} (formed : before ++ [batch] <+: formedIn m.events)
    (chunks : batch.chunks = front ++ Line.terminate chunk :: back)
    (place : before.flatMap Batch.chunks ++ front = (acceptedIn older).map Line.terminate) :
    .formed batch ∉ older := by
  intro isOlder
  have distinct : (formedIn m.events).Nodup :=
    .of_map Batch.serial (accounted.serials ▸ List.nodup_range)
  have past : formedIn older <+: formedIn m.events := by
    rw [there, formedIn_append]
    simp [Event.formed?]
  have among : batch ∈ formedIn older := mem_formedIn.mpr isOlder
  -- The batches formed before the chunk came in hold no more than what came in before it.
  have few : ¬ before ++ [batch] <+: formedIn older := by
    rintro ⟨rest, eq⟩
    have suffix : older <:+ m.events := by
      rw [there]
      exact (List.suffix_cons _ _).trans (List.suffix_append _ _)
    have least := (inOrder whole older suffix).length_le
    have count := congrArg List.length place
    rw [← eq] at least
    simp only [List.flatMap_append, List.flatMap_singleton, chunks, List.length_append,
      List.length_cons] at least count
    omega
  rcases List.prefix_or_prefix_of_prefix formed past with inside | inside
  · exact few inside
  · rcases List.prefix_concat_iff.mp inside with eq | inside
    · exact few (eq ▸ List.prefix_rfl)
    · have nodup := distinct.sublist formed.sublist
      exact List.disjoint_of_nodup_append nodup (inside.subset among) (List.mem_singleton_self _)

/-- At a moment at which nothing is on its way, each accepted chunk is in a batch that was handled
since the chunk came in. -/
theorem Clear.exists_handled (clear : m.Clear) (accounted : Accounted setup m)
    (lived : Lived setup m) (inOrder : m.CutInOrder) (onWay : FormedOnWay setup m)
    (whole : m.torn = false) {chunk : Bytes} {older newer : List Event}
    (there : m.events = newer ++ .accepted chunk :: older) :
    ∃ before batch front back, before ++ [batch] <+: formedIn m.events ∧
      batch.chunks = front ++ Line.terminate chunk :: back ∧
      before.flatMap Batch.chunks ++ front = (acceptedIn older).map Line.terminate ∧
      Handled setup batch newer := by
  have all : (formedIn m.events).flatMap Batch.chunks = (acceptedIn older).map Line.terminate ++
      Line.terminate chunk :: (acceptedIn newer).map Line.terminate := by
    have ordered := accounted.ordered whole
    rw [clear.upstream, List.append_nil] at ordered
    rw [ordered, there, acceptedIn_append]
    simp [Event.accepted?]
  obtain ⟨before, batch, after, front, back, formed, chunks, place⟩ :=
    exists_append_of_flatMap_eq all
  have first : before ++ [batch] <+: formedIn m.events := ⟨after, by simp [formed]⟩
  have isFormed : batch ∈ formedIn m.events := by simp [formed]
  have handled := (onWay whole batch isFormed).resolve_left clear.not_onWay
  have fresh := not_formed_of_accepted accounted inOrder whole there first chunks place
  obtain ⟨stage, life, _⟩ := lived.lives batch isFormed
  have past : .accepted chunk :: older <:+ m.events := ⟨newer, there.symm⟩
  have unnamed := life.not_names_of_not_formed past (by simpa using fresh)
  exact ⟨before, batch, front, back, first, chunks, place, (there ▸ handled).of_append unnamed⟩

/-- A batch that was handled since does not wait any more as it waited then. -/
theorem not_mem_waiting_of_handled (accounted : Accounted setup l) (before : Lived setup l)
    (after : Lived setup m) (waits : batch ∈ l.waiting) {since : List Event}
    (events : m.events = since ++ l.events) (handled : Handled setup batch since) :
    batch ∉ m.waiting := by
  intro still
  have isFormed := accounted.renewed_mem_formedIn (Accounted.mem_known_of_waiting waits)
  have stillFormed : renewed setup batch ∈ formedIn m.events := by
    rw [events, formedIn_append]
    exact List.mem_append_left _ isFormed
  obtain ⟨stage, past, stood⟩ := before.lives _ isFormed
  obtain ⟨stage', life, stands⟩ := after.lives _ stillFormed
  obtain ⟨failures, rfl, was⟩ := stood.waiting batch waits rfl
  obtain ⟨failures', rfl, isNow⟩ := stands.waiting batch still rfl
  obtain ⟨few, _, answers, _⟩ := past.counted
  obtain ⟨few', _, answers', _⟩ := life.counted
  have left : (renewed setup batch).remaining - failures = (renewed setup batch).remaining - failures' :=
    congrArg Batch.remaining (was.symm.trans isNow)
  cases handled with
  | answered attempt error? there =>
    have new : 0 < answersOf (renewed setup batch) since :=
      List.countP_pos_iff.mpr ⟨_, there, by simp [Event.answers, renewed]⟩
    have sum : answersOf (renewed setup batch) m.events =
        answersOf (renewed setup batch) since + answersOf (renewed setup batch) l.events := by
      rw [events, answersOf, List.countP_append]
      rfl
    omega
  | expired attempt there =>
    have ended : .expired batch attempt ∈ m.events :=
      events ▸ List.mem_append_left _ (there (by simp))
    obtain ⟨newer, older, split⟩ := List.append_of_mem ended
    have suffix : .expired batch attempt :: older <:+ m.events := ⟨newer, split.symm⟩
    obtain ⟨isFinished, _⟩ := life.silent suffix rfl rfl
    simp at isFinished

end Ledger

namespace State

variable {setup : Setup} {s t : State}

/-- A flush of an open writer hands all of the backlog back and begins to wait. -/
theorem begun_of_client? (whole : s.isTorn = false) (free : s.wait? = none) {rest : List Request}
    (asked : s.requests = .flush :: rest) (taken : s.client? setup = some t) :
    t.wait? = some .barrier ∧ t.barrierHeld ∧
      t.retryQueue = s.retryQueue ++ s.backlog.items.map Backlog.Item.batch := by
  obtain ⟨opened, running, alive, _⟩ := isTorn_eq_false.mp whole
  cases action_of_client? taken with
  | endWait waits => simp [free] at waits
  | serve _ first served =>
    obtain ⟨rfl, rfl⟩ := List.cons.inj (asked.symm.trans first)
    cases served with
    | flushClosed closing => simp [opened] at closing
    | flushStopped _ stopped => simp [running] at stopped
    | flush => simp [withBacklog_eq, Backlog.releaseAll, alive, record, barrierHeld]

theorem passed_of_client? (waits : s.wait? = some .barrier) (taken : s.client? setup = some t) :
    s.barrierHeld = false ∧ t = s.endWait .barrier := by
  cases action_of_client? taken with
  | endWait same ended =>
    obtain rfl := Option.some.inj (waits.symm.trans same)
    exact ⟨by simpa [waitIsOver] using ended, rfl⟩
  | serve free => simp [waits] at free

end State

/-- A client that is free calls for a flush in the first state; a run later, its wait for a barrier
ends in the second. -/
inductive Flushes (setup : Setup) (s t : State) : Prop
  | intro (rest : List Request) (called waiting : State) (free : s.wait? = none)
      (asked : s.requests = .flush :: rest) (begins : s.step? setup .client = some called)
      (run : Runs setup called waiting) (waits : waiting.wait? = some .barrier)
      (returns : waiting.step? setup .client = some t)

/-- What a flush that began in the first state leaves when it returns in the second. -/
structure Flushed (setup : Setup) (s t : State) : Prop where
  /-- Every chunk accepted before is in a batch that was handled since the chunk was accepted: the
  batches before it hold what was accepted earlier. -/
  chunks : ∀ chunk older, .accepted chunk :: older <:+ s.events →
    ∃ since before batch front back, t.events = since ++ .accepted chunk :: older ∧
      before ++ [batch] <+: formedIn t.events ∧
      batch.chunks = front ++ Line.terminate chunk :: back ∧
      before.flatMap Batch.chunks ++ front = (acceptedIn older).map Line.terminate ∧
      Handled setup batch since
  /-- Every batch that was in the backlog was handled since the flush began. -/
  retries : ∀ item ∈ s.backlog.items,
    (∃ since, t.events = since ++ s.events ∧ Handled setup item.batch since) ∧
      item.batch ∉ t.retryQueue
  lineQueue : t.lineQueue = []
  buffer : t.buffering.buffer.isEmpty
  outbox : t.buffering.outbox = []
  handing? : t.buffering.handing? = none
  batchQueue : t.batchQueue = []

/-- The moments of a flush: after it has begun and before it returns, nothing is on its way. -/
structure Passes (setup : Setup) (s called clear t : State) : Prop where
  toCall : Runs setup s called
  released : called.retryQueue = s.retryQueue ++ s.backlog.items.map Backlog.Item.batch
  toClear : Runs setup called clear
  isClear : clear.ledger.Clear
  whole : clear.ledger.torn = false
  toReturn : Runs setup clear t

namespace Reachable

variable {setup : Setup} {s t : State}

theorem cutInOrder (reachable : Reachable setup s) : s.ledger.CutInOrder := by
  have aside : (Event.started setup.options.flushInterval.toNat setup.maxRetries).IsAside := trivial
  exact (Ledger.cutInOrder_opening aside).steps (Ledger.accounted_opening aside) reachable.steps

theorem formedOnWay (reachable : Reachable setup s) : s.ledger.FormedOnWay setup := by
  have aside : (Event.started setup.options.flushInterval.toNat setup.maxRetries).IsAside := trivial
  exact (Ledger.formedOnWay_opening aside).steps reachable.steps

theorem exists_passes_of_flushes (reachable : Reachable setup s) (calm : setup.NeverCrashes)
    (opened : s.closing = false) (flushes : Flushes setup s t) :
    ∃ called clear, Passes setup s called clear t := by
  obtain ⟨rest, called, waiting, free, asked, begins, run, waits, returns⟩ := flushes
  have whole := reachable.isTorn_eq_false calm opened
  obtain ⟨wait, held, released⟩ := State.begun_of_client? whole free asked begins
  obtain ⟨passed, _⟩ := State.passed_of_client? waits returns
  have toCall : Move setup s called := .step .client begins
  have atCall := reachable.move toCall
  obtain ⟨clear, before, isClear, after⟩ : ∃ clear, Runs setup called clear ∧
      clear.ledger.Clear ∧ Runs setup clear waiting := by
    apply (atCall.exists_clear calm wait held run).resolve_left
    simp [passed]
  have atClear := atCall.runs before
  have still := (atClear.runs after).isTorn_eq_false_of_waits calm waits
  have unharmed := Ledger.Steps.torn_eq_false (atClear.steps_of_runs after) still
  exact ⟨called, clear, .single toCall, released, before, isClear, unharmed,
    after.tail (.step .client returns)⟩

/-- When the wait for a barrier ends, nothing is left on the road. -/
theorem emptied_of_flushes (reachable : Reachable setup s) (calm : setup.NeverCrashes)
    (flushes : Flushes setup s t) : t.BarrierLast ∧ t.road = [] := by
  obtain ⟨rest, called, waiting, _, _, begins, run, waits, returns⟩ := flushes
  obtain ⟨passed, rfl⟩ := State.passed_of_client? waits returns
  have minded : waiting.flushAsked = false := by
    by_contra asking
    simp [State.barrierHeld, asking] at passed
  have atReturn := (reachable.move (.step .client begins)).runs run
  have last := atReturn.barrierSent calm waits minded
  have none := last.road_eq_nil passed
  exact ⟨{ last with }, none⟩

theorem handled_of_accepted (reachable : Reachable setup s) {called clear : State}
    (passes : Passes setup s called clear t) {chunk : Bytes} {older : List Event}
    (there : .accepted chunk :: older <:+ s.events) :
    ∃ since before batch front back, t.events = since ++ .accepted chunk :: older ∧
      before ++ [batch] <+: formedIn t.events ∧
      batch.chunks = front ++ Line.terminate chunk :: back ∧
      before.flatMap Batch.chunks ++ front = (acceptedIn older).map Line.terminate ∧
      Handled setup batch since := by
  have toClear := passes.toCall.trans passes.toClear
  have atClear := reachable.runs toClear
  obtain ⟨newer, split⟩ := there.trans (Ledger.Steps.suffix (reachable.steps_of_runs toClear))
  obtain ⟨later, after⟩ := Ledger.Steps.suffix (atClear.steps_of_runs passes.toReturn)
  obtain ⟨before, batch, front, back, formed, chunks, place, handled⟩ :=
    passes.isClear.exists_handled atClear.accounted atClear.lived atClear.cutInOrder
      atClear.formedOnWay passes.whole split.symm
  have events : t.events = later ++ newer ++ .accepted chunk :: older := by
    rw [List.append_assoc, split]
    exact after.symm
  have more : formedIn clear.ledger.events <+: formedIn t.events := by
    rw [events, List.append_assoc, split, formedIn_append]
    exact List.prefix_append _ _
  exact ⟨later ++ newer, before, batch, front, back, events, formed.trans more, chunks, place,
    handled.mono (List.subset_append_right _ _)⟩

theorem handled_of_backlog (reachable : Reachable setup s) {called clear : State}
    (passes : Passes setup s called clear t) {item : Backlog.Item}
    (held : item ∈ s.backlog.items) :
    (∃ since, t.events = since ++ s.events ∧ Handled setup item.batch since) ∧
      item.batch ∉ t.retryQueue := by
  have atCall := reachable.runs passes.toCall
  have atClear := atCall.runs passes.toClear
  obtain ⟨begun, first⟩ := Ledger.Steps.suffix (reachable.steps_of_runs passes.toCall)
  obtain ⟨later, last⟩ := Ledger.Steps.suffix (atClear.steps_of_runs passes.toReturn)
  have onWay : called.ledger.OnWay item.batch := by
    apply Ledger.OnWay.retries
    change item.batch ∈ called.retryQueue
    rw [passes.released]
    exact List.mem_append_right _ (List.mem_map_of_mem held)
  obtain ⟨since, middle, handled⟩ := (Ledger.Steps.onWay (atCall.steps_of_runs passes.toClear)
    passes.whole onWay).resolve_left passes.isClear.not_onWay
  have events : t.ledger.events = later ++ since ++ begun ++ s.ledger.events := by
    rw [← last, middle, ← first]
    simp
  have handledSince : Handled setup item.batch (later ++ since ++ begun) :=
    handled.mono (by simp)
  have waits : item.batch ∈ s.ledger.waiting := by
    apply Multiset.mem_add.mpr (.inr _)
    exact Multiset.mem_coe.mpr (List.mem_map_of_mem held)
  refine ⟨⟨_, events, handledSince⟩, fun there ↦ ?_⟩
  apply Ledger.not_mem_waiting_of_handled reachable.accounted reachable.lived
    (atClear.runs passes.toReturn).lived waits events handledSince
  simp [Ledger.waiting, State.ledger, there]

/-- At the moment at which a flush of an open writer returns, everything that came before it has been
handled. -/
theorem flushed_of_flushes (reachable : Reachable setup s) (calm : setup.NeverCrashes)
    (opened : s.closing = false) (flushes : Flushes setup s t) : Flushed setup s t := by
  obtain ⟨called, clear, passes⟩ := reachable.exists_passes_of_flushes calm opened flushes
  obtain ⟨last, none⟩ := reachable.emptied_of_flushes calm flushes
  obtain ⟨parcels, free, outbox⟩ := State.road_eq_nil.mp none
  exact
    { chunks := fun chunk older there ↦ reachable.handled_of_accepted passes there
      retries := fun item held ↦ reachable.handled_of_backlog passes held
      lineQueue := last.lineQueue
      buffer := last.buffer
      outbox
      handing? := free
      batchQueue := parcels }

end Reachable

/-- A flush is to follow the next line, while a refused batch waits for its retry. -/
def State.pressed : State :=
  takeTurns .refusing 1 .client
    { refused with requests := [.line [66], .flush], closed? := none }

/-- The flush waits for its barrier. -/
def State.pressing : State :=
  { pressed with requests := [] }.beginFlush

theorem flushed_pressed :
    State.pressed.backlog.items.length = 1 ∧ State.pressed.lineQueue = [[66]] ∧
      ∃ t, Flushes .refusing State.pressed t ∧ Flushed .refusing State.pressed t := by
  have flushes : Flushes .refusing State.pressed
      ((State.takeTurns .refusing 12 .client State.pressing).endWait .barrier) := by
    apply Flushes.intro [] State.pressing (State.takeTurns .refusing 12 .client State.pressing)
    case free => rfl
    case asked => rfl
    case begins => rfl
    case run => exact State.takeTurns_runs _ _
    case waits => decide +kernel
    case returns => decide +kernel
  have reachable : Reachable .refusing State.pressed :=
    Reachable.refused.runs (.head (.ask _ rfl) (State.takeTurns_runs _ _))
  refine ⟨by decide +kernel, by decide +kernel, _, flushes, ?_⟩
  exact reachable.flushed_of_flushes Setup.refusing_neverCrashes (by decide +kernel) flushes

end LineDelivery.Pipeline
