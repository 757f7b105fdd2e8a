import LineDelivery.Proofs.Pipeline.Life

/-!
# What is on its way is handled

A batch on its way to the transport stays there until its call has ended or its time is over, as long
as nothing is lost. The events keep the order in which chunks came in: at any time of the past, the
batches formed until then hold the first of the chunks accepted until then.
-/

namespace LineDelivery.Pipeline

/-- The sending loop dealt with a batch: a call ended, or its time was over, which was reported. -/
inductive Handled (setup : Setup) (batch : Batch) (events : List Event) : Prop
  | answered (attempt : Nat) (error? : Option DeliveryError)
      (there : .answered batch attempt error? ∈ events)
  | expired (attempt : Nat)
      (there : reports setup .maxRetryTimeExceeded batch attempt ++ [.expired batch attempt] ⊆ events)

namespace Handled

variable {setup : Setup} {batch : Batch} {events : List Event}

theorem mono (handled : Handled setup batch events) {more : List Event} (less : events ⊆ more) :
    Handled setup batch more := by
  cases handled with
  | answered attempt error? there => exact .answered attempt error? (less there)
  | expired attempt there => exact .expired attempt (List.Subset.trans there less)

/-- Events that do not name a batch are not what it was handled by. -/
theorem of_append {older : List Event} (handled : Handled setup batch (events ++ older))
    (unnamed : ∀ event ∈ older, ¬ event.Names batch) : Handled setup batch events := by
  cases handled with
  | answered attempt error? there =>
    apply Handled.answered attempt error?
    rcases List.mem_append.mp there with new | old
    · exact new
    · exact absurd ⟨batch, rfl, rfl⟩ (unnamed _ old)
  | expired attempt there =>
    apply Handled.expired attempt
    have named : ∀ event ∈ reports setup .maxRetryTimeExceeded batch attempt ++
        [.expired batch attempt], event.Names batch := by
      simp only [List.forall_mem_append, forall_mem_reports, List.forall_mem_singleton]
      exact ⟨fun _ ↦ ⟨batch, rfl, rfl⟩, batch, rfl, rfl⟩
    intro event inside
    rcases List.mem_append.mp (there inside) with new | old
    · exact new
    · exact absurd (named event inside) (unnamed event old)

end Handled

namespace Ledger

variable {setup : Setup} {l m : Ledger} {batch : Batch}

/-! ## What steps add to the events -/

/-- A step accepts a chunk, or forms a batch and sends it, or adds events that do neither. -/
inductive Adds (l m : Ledger) : Prop
  | accepted (chunk : Bytes) (events : m.events = .accepted chunk :: l.events)
  | formed (batch : Batch) (events : m.events = .formed batch :: l.events)
      (sent : .batch batch ∈ m.conveyor)
  | other (block : List Event) (events : m.events = block ++ l.events)
      (quiet : ∀ event ∈ block, event.accepted? = none ∧ event.formed? = none)

theorem Step.adds (step : Step setup l m) : Adds l m := by
  cases step with
  | aside event aside => exact .other [event] rfl (by simp [aside.accepted?, aside.formed?])
  | accept chunk filled => exact .accepted chunk rfl
  | form cut filled serial remaining => exact .formed _ rfl (by simp)
  | @expire m batch idle takes =>
    apply Adds.other (reports setup .maxRetryTimeExceeded batch (State.attemptOf setup batch) ++
      [.expired batch (State.attemptOf setup batch)])
    · simp [takes.events_eq]
    · simp only [List.forall_mem_append, forall_mem_reports]
      simp [Event.accepted?, Event.formed?]
  | call call idle takes attempt =>
    apply Adds.other [.called call.batch call.attempt]
    · simp [takes.events_eq]
    · simp [Event.accepted?, Event.formed?]
  | @crash call =>
    exact .other [.crashed call.batch] rfl (by simp [Event.accepted?, Event.formed?])
  | @deliver call =>
    apply Adds.other [.delivered call.batch call.attempt, .backoffReset,
      .answered call.batch call.attempt none]
    · rfl
    · simp [Event.accepted?, Event.formed?]
  | @abandon call took error =>
    apply Adds.other (.abandoned call.batch call.attempt error ::
      (reports setup error call.batch call.attempt ++
        [.answered call.batch call.attempt (some error)]))
    · simp
    · simp only [List.forall_mem_cons, List.forall_mem_append, forall_mem_reports]
      simp [Event.accepted?, Event.formed?]
  | @retry call took error delay =>
    apply Adds.other (.retrying call.batch call.attempt error delay ::
      .delayed error call.attempt delay :: (reports setup error call.batch call.attempt ++
        [.answered call.batch call.attempt (some error)]))
    · simp
    · simp only [List.forall_mem_cons, List.forall_mem_append, forall_mem_reports]
      simp [Event.accepted?, Event.formed?]
  | @release batch rest held =>
    exact .other [.backlog (.released batch)] rfl (by simp [Event.accepted?, Event.formed?])
  | @remove item rest limit held =>
    exact .other [.backlog (.removed item limit)] rfl (by simp [Event.accepted?, Event.formed?])
  | _ => exact .other [] rfl (by simp)

theorem Step.suffix (step : Step setup l m) : l.events <:+ m.events := by
  cases step.adds with
  | accepted chunk events => exact events ▸ List.suffix_cons _ _
  | formed batch events sent => exact events ▸ List.suffix_cons _ _
  | other block events quiet => exact events ▸ List.suffix_append _ _

theorem Steps.suffix (steps : Steps setup l m) : l.events <:+ m.events := by
  induction steps with
  | refl => exact List.suffix_rfl
  | tail _ step ih => exact ih.trans step.suffix

theorem Steps.torn_eq_false (steps : Steps setup l m) (whole : m.torn = false) :
    l.torn = false := by
  induction steps with
  | refl => exact whole
  | tail _ step ih => exact ih (step.torn_eq_false whole)

/-- At any time, the batches formed so far hold the first of the chunks accepted so far. -/
def CutInOrder (l : Ledger) : Prop :=
  l.torn = false → ∀ older, older <:+ l.events →
    (formedIn older).flatMap Batch.chunks <+: (acceptedIn older).map Line.terminate

theorem Step.cutInOrder (step : Step setup l m) (accounted : Accounted setup m)
    (inOrder : l.CutInOrder) : m.CutInOrder := by
  intro whole older past
  have before := inOrder (step.torn_eq_false whole)
  have now : (formedIn m.events).flatMap Batch.chunks <+: (acceptedIn m.events).map Line.terminate :=
    ⟨m.upstream, accounted.ordered whole⟩
  cases step.adds with
  | accepted chunk events =>
    rcases List.suffix_cons_iff.mp (events ▸ past) with whole | past
    · exact whole ▸ events ▸ now
    · exact before older past
  | formed batch events sent =>
    rcases List.suffix_cons_iff.mp (events ▸ past) with whole | past
    · exact whole ▸ events ▸ now
    · exact before older past
  | other block events quiet =>
    cases older with
    | nil => exact List.nil_prefix
    | cons event older =>
      rcases suffix_append_cases (events ▸ past) with ⟨newer, inside, rfl⟩ | past
      · have still := fun other there ↦ quiet other (inside.subset there)
        rw [← List.cons_append, acceptedIn_quiet _ fun other there ↦ (still other there).1,
          formedIn_quiet _ fun other there ↦ (still other there).2]
        exact before l.events List.suffix_rfl
      · exact before _ past

theorem cutInOrder_opening {event : Event} (aside : event.IsAside) :
    (opening event).CutInOrder := by
  intro _ older past
  rcases List.suffix_cons_iff.mp past with rfl | past
  · simp [aside.formed?]
  · simp [List.suffix_nil.mp past]

theorem CutInOrder.steps (inOrder : l.CutInOrder) (accounted : Accounted setup l)
    (steps : Steps setup l m) : m.CutInOrder := by
  induction steps with
  | refl => exact inOrder
  | tail before step ih => exact step.cutInOrder (accounted.steps (before.tail step)) ih

/-! ## What is on its way -/

/-- The batch is before the sending loop or in its hand. -/
inductive OnWay (l : Ledger) (batch : Batch) : Prop
  | conveyor (there : .batch batch ∈ l.conveyor)
  | retries (there : batch ∈ l.retries)
  | calling (call : Call) (busy : l.sending = .calling call) (same : call.batch = batch)

/-- Nothing is on its way to the sending loop, nor in its hand. -/
structure Clear (l : Ledger) : Prop where
  upstream : l.upstream = []
  conveyor : l.conveyor = []
  retries : l.retries = []
  idle : l.sending = .idle

theorem Clear.not_onWay (clear : l.Clear) : ¬ l.OnWay batch := by
  intro onWay
  cases onWay with
  | conveyor there => simp [clear.conveyor] at there
  | retries there => simp [clear.retries] at there
  | calling call busy => simp [clear.idle] at busy

theorem OnWay.mono (onWay : l.OnWay batch) (conveyor : l.conveyor ⊆ m.conveyor)
    (retries : l.retries ⊆ m.retries)
    (sending : ∀ call, l.sending = .calling call → m.sending = .calling call) : m.OnWay batch := by
  cases onWay with
  | conveyor there => exact .conveyor (conveyor there)
  | retries there => exact .retries (retries there)
  | calling call busy same => exact .calling call (sending call busy) same

/-- Of what is on its way while the sending loop is idle, only the batch that is taken leaves. -/
theorem Takes.onWay {taken : Batch} (takes : l.Takes taken m) (onWay : l.OnWay batch) :
    taken = batch ∨ m.OnWay batch := by
  cases takes with
  | retry first =>
    cases onWay with
    | conveyor there => exact .inr (.conveyor there)
    | retries there =>
      rcases List.mem_cons.mp (first ▸ there) with rfl | there
      · exact .inl rfl
      · exact .inr (.retries there)
    | calling call busy same => exact .inr (.calling call busy same)
  | fresh noRetry first =>
    cases onWay with
    | conveyor there =>
      rcases List.mem_cons.mp (first ▸ there) with same | there
      · exact .inl (Parcel.batch.inj same).symm
      · exact .inr (.conveyor there)
    | retries there => exact .inr (.retries there)
    | calling call busy same => exact .inr (.calling call busy same)

/-- When a call ends, its batch is handled and nothing else leaves. -/
theorem OnWay.of_answered {call : Call} (onWay : l.OnWay batch) (block : List Event)
    (error? : Option DeliveryError) (busy : l.sending = .calling call)
    (conveyor : m.conveyor = l.conveyor) (retries : m.retries = l.retries)
    (events : m.events = block ++ l.events)
    (answered : .answered call.batch call.attempt error? ∈ block) :
    m.OnWay batch ∨ ∃ block, m.events = block ++ l.events ∧ Handled setup batch block := by
  cases onWay with
  | conveyor there => exact .inl (.conveyor (conveyor ▸ there))
  | retries there => exact .inl (.retries (retries ▸ there))
  | calling other isBusy same =>
    obtain rfl := Sending.calling.inj (busy.symm.trans isBusy)
    exact .inr ⟨block, events, .answered _ _ (same ▸ answered)⟩

/-- As long as nothing is lost, what is on its way stays there until it is handled. -/
theorem Step.onWay (step : Step setup l m) (whole : m.torn = false) (onWay : l.OnWay batch) :
    m.OnWay batch ∨ ∃ block, m.events = block ++ l.events ∧ Handled setup batch block := by
  cases step with
  | form cut filled serial remaining =>
    exact .inl (onWay.mono (List.subset_append_left _ _) (.refl _) fun _ busy ↦ busy)
  | sendBarrier =>
    exact .inl (onWay.mono (List.subset_append_left _ _) (.refl _) fun _ busy ↦ busy)
  | meetBarrier idle noRetry first =>
    cases onWay with
    | conveyor there => exact .inl (.conveyor (by simpa [first] using there))
    | retries there => exact .inl (.retries there)
    | calling call busy same => exact .inl (.calling call busy same)
  | @expire m taken idle takes =>
    rcases takes.onWay onWay with rfl | onWay
    · refine .inr ⟨reports setup .maxRetryTimeExceeded taken (State.attemptOf setup taken) ++
        [.expired taken (State.attemptOf setup taken)], by simp [takes.events_eq], ?_⟩
      exact .expired _ (List.Subset.refl _)
    · exact .inl (onWay.mono (.refl _) (.refl _) fun _ busy ↦ busy)
  | call call idle takes attempt =>
    rcases takes.onWay onWay with same | onWay
    · exact .inl (.calling call rfl same)
    · refine .inl (onWay.mono (.refl _) (.refl _) fun other busy ↦ ?_)
      simp [takes.sending_eq, idle] at busy
  | @deliver call took busy =>
    exact onWay.of_answered [.delivered call.batch call.attempt, .backoffReset,
      .answered call.batch call.attempt none] none busy (by rfl) (by rfl) (by rfl) (by simp)
  | @abandon call took error busy =>
    exact onWay.of_answered (.abandoned call.batch call.attempt error ::
      (reports setup error call.batch call.attempt ++
        [.answered call.batch call.attempt (some error)])) (some error) busy (by rfl) (by rfl)
      (by simp) (by simp)
  | @retry call took error delay busy =>
    exact onWay.of_answered (.retrying call.batch call.attempt error delay ::
      .delayed error call.attempt delay :: (reports setup error call.batch call.attempt ++
        [.answered call.batch call.attempt (some error)])) (some error) busy (by rfl) (by rfl)
      (by simp) (by simp)
  | release held =>
    exact .inl (onWay.mono (.refl _) (List.subset_append_left _ _) fun _ busy ↦ busy)
  | crash => simp at whole
  | tear => simp at whole
  | stop idle torn => simp [torn] at whole
  | lose torn => simp [torn] at whole
  | _ => exact .inl (onWay.mono (.refl _) (.refl _) fun _ busy ↦ busy)

theorem Steps.onWay (steps : Steps setup l m) (whole : m.torn = false) (onWay : l.OnWay batch) :
    m.OnWay batch ∨ ∃ since, m.events = since ++ l.events ∧ Handled setup batch since := by
  induction steps with
  | refl => exact .inl onWay
  | tail before step ih =>
    rcases ih (step.torn_eq_false whole) with onWay | ⟨since, events, handled⟩
    · rcases step.onWay whole onWay with onWay | ⟨block, latest, handled⟩
      · exact .inl onWay
      · obtain ⟨older, events⟩ := Steps.suffix before
        refine .inr ⟨block ++ older, ?_, handled.mono (List.subset_append_left _ _)⟩
        rw [latest, ← events, List.append_assoc]
    · obtain ⟨newer, latest⟩ := step.suffix
      refine .inr ⟨newer ++ since, ?_, handled.mono (List.subset_append_right _ _)⟩
      rw [← latest, events, List.append_assoc]

/-- Every batch formed so far is on its way or was handled, as long as nothing is lost. -/
def FormedOnWay (setup : Setup) (l : Ledger) : Prop :=
  l.torn = false → ∀ batch ∈ formedIn l.events, l.OnWay batch ∨ Handled setup batch l.events

theorem Step.formedOnWay (step : Step setup l m) (onWay : FormedOnWay setup l) :
    FormedOnWay setup m := by
  intro whole batch isFormed
  have older (old : batch ∈ formedIn l.events) : m.OnWay batch ∨ Handled setup batch m.events := by
    rcases onWay (step.torn_eq_false whole) batch old with onWay | handled
    · rcases step.onWay whole onWay with onWay | ⟨block, events, handled⟩
      · exact .inl onWay
      · exact .inr (handled.mono (events ▸ List.subset_append_left _ _))
    · exact .inr (handled.mono step.suffix.subset)
  cases step.adds with
  | accepted chunk events =>
    simp only [events, formedIn_cons, Event.formed?, Option.toList_none, List.append_nil] at isFormed
    exact older isFormed
  | formed last events sent =>
    simp only [events, formedIn_cons, Event.formed?, Option.toList_some, List.mem_append,
      List.mem_singleton] at isFormed
    rcases isFormed with old | rfl
    · exact older old
    · exact .inl (.conveyor sent)
  | other block events quiet =>
    rw [events, formedIn_quiet l.events fun event there ↦ (quiet event there).2] at isFormed
    exact older isFormed

theorem formedOnWay_opening {event : Event} (aside : event.IsAside) :
    FormedOnWay setup (opening event) := by
  intro _ batch isFormed
  simp [opening, aside.formed?] at isFormed

theorem FormedOnWay.steps (onWay : FormedOnWay setup l) (steps : Steps setup l m) :
    FormedOnWay setup m := by
  induction steps with
  | refl => exact onWay
  | tail _ step ih => exact step.formedOnWay ih

end Ledger

end LineDelivery.Pipeline
