import LineDelivery.Proofs.Pipeline.Handling
import LineDelivery.Proofs.Pipeline.Holding

/-!
# The load of retries

The retry queue has no bound of its own, and the limit of the backlog does not count what was
released. But the sending loop takes retries before fresh batches, and nobody else feeds the
backlog. So while it works on retries their lines only move from one place to another, and when it
turns to a fresh batch all retries are in the backlog again, within its limit. Only the batch that
it then fails to send can come on top.
-/

namespace LineDelivery.Pipeline

/-- A batch that failed before has fewer retries left than it was formed with. -/
def Setup.isRetry (setup : Setup) (batch : Batch) : Bool :=
  batch.remaining < setup.maxRetries

/-! ## Fresh batches and retries -/

namespace Ledger

variable {setup : Setup} {l m : Ledger}

/-- Fresh batches are on the conveyor, and retries wait before the sending loop or are held. -/
structure Sorted (setup : Setup) (l : Ledger) : Prop where
  conveyor : ∀ batch, .batch batch ∈ l.conveyor → batch.remaining = setup.maxRetries
  retries : ∀ batch ∈ l.retries, setup.isRetry batch
  held : ∀ batch ∈ l.held, setup.isRetry batch
  calling : ∀ call, l.sending = .calling call → call.batch.remaining ≤ setup.maxRetries

theorem Takes.sorted (sorted : l.Sorted setup) {batch : Batch} (takes : l.Takes batch m) :
    m.Sorted setup ∧ batch.remaining ≤ setup.maxRetries := by
  cases takes with
  | retry first =>
    have fewer := (List.forall_mem_cons.mp (first ▸ sorted.retries))
    exact ⟨{ sorted with retries := fewer.2 }, (decide_eq_true_iff.mp fewer.1).le⟩
  | @fresh rest noRetry first =>
    have fewer : ∀ other, .batch other ∈ rest → other.remaining = setup.maxRetries :=
      fun other there ↦ sorted.conveyor other (first ▸ .tail _ there)
    exact ⟨{ sorted with conveyor := fewer }, (sorted.conveyor batch (first ▸ .head _)).le⟩

theorem Step.sorted (step : Step setup l m) (sorted : l.Sorted setup) : m.Sorted setup := by
  cases step with
  | form cut filled serial remaining =>
    refine { sorted with conveyor := fun other there ↦ ?_ }
    rcases List.mem_append.mp there with old | new
    · exact sorted.conveyor other old
    · obtain rfl : other = _ := by simpa using new
      exact remaining
  | sendBarrier => exact { sorted with conveyor := by simpa using sorted.conveyor }
  | meetBarrier idle noRetry first =>
    refine { sorted with conveyor := fun other there ↦ ?_ }
    exact sorted.conveyor other (first ▸ .tail _ there)
  | expire idle takes => exact { (takes.sorted sorted).1 with }
  | call call idle takes attempt =>
    obtain ⟨kept, remaining⟩ := takes.sorted sorted
    exact { kept with calling := fun other same ↦ Sending.calling.inj same ▸ remaining }
  | crash | deliver | abandon | stop => exact { sorted with calling := by simp }
  | @retry call took error delay busy failure wanted left =>
    refine { sorted with held := fun batch there ↦ ?_, calling := by simp }
    rcases Multiset.mem_cons.mp there with rfl | old
    · have few := sorted.calling call busy
      simp only [Setup.isRetry, decide_eq_true_eq]
      omega
    · exact sorted.held batch old
  | @release batch rest held =>
    obtain ⟨released, kept⟩ := Multiset.forall_mem_cons.mp (held ▸ sorted.held)
    exact
      { sorted with
        retries := List.forall_mem_append.mpr ⟨sorted.retries, by simpa using released⟩
        held := kept }
  | remove limit held =>
    exact { sorted with held := (Multiset.forall_mem_cons.mp (held ▸ sorted.held)).2 }
  | lose torn upstream_sublist conveyor_sublist retries_sublist held_le =>
    exact
      { conveyor := fun batch there ↦ sorted.conveyor batch (conveyor_sublist.subset there)
        retries := fun batch there ↦ sorted.retries batch (retries_sublist.subset there)
        held := fun batch there ↦ sorted.held batch (Multiset.mem_of_le held_le there)
        calling := sorted.calling }
  | aside | accept | tear => exact { sorted with }

theorem sorted_opening (event : Event) : (opening event).Sorted setup := by
  constructor <;> simp [opening]

theorem Sorted.steps (sorted : l.Sorted setup) (steps : Steps setup l m) : m.Sorted setup := by
  induction steps with
  | refl => exact sorted
  | tail _ step ih => exact step.sorted ih

end Ledger

theorem Reachable.sorted {setup : Setup} {s : State} (reachable : Reachable setup s) :
    s.ledger.Sorted setup :=
  (Ledger.sorted_opening _).steps reachable.steps

/-! ## What they weigh -/

/-- The lines of several batches together. -/
def linesOf (batches : List Batch) : Nat :=
  (batches.map Batch.lineCount).sum

@[simp]
theorem linesOf_nil : linesOf [] = 0 := rfl

@[simp]
theorem linesOf_cons (batch : Batch) (batches : List Batch) :
    linesOf (batch :: batches) = batch.lineCount + linesOf batches :=
  List.sum_cons

@[simp]
theorem linesOf_append (first second : List Batch) :
    linesOf (first ++ second) = linesOf first + linesOf second := by
  simp [linesOf]

theorem linesOf_perm {first second : List Batch} (perm : first.Perm second) :
    linesOf first = linesOf second :=
  (perm.map Batch.lineCount).sum_nat

theorem linesOf_items {backlog : Backlog} (measured : backlog.Measured) :
    linesOf (backlog.items.map Backlog.Item.batch) = backlog.size := by
  rw [measured.size, Backlog.totalLines_eq_sum, linesOf, List.map_map]
  exact congrArg List.sum (List.map_congr_left fun item held ↦ (measured.lines item held).symm)

/-- An addition changes nothing or takes the batch in, for which others may have to go. -/
theorem linesOf_add (backlog : Backlog) (now : Nat) (batch : Batch) (delay : Nat) :
    (backlog.add now batch delay).1 = backlog ∨
      (.scheduled (.schedule now batch delay) delay ∈ (backlog.add now batch delay).2 ∧
        batch.lineCount ≤ backlog.limit ∧
        linesOf ((backlog.add now batch delay).1.items.map Backlog.Item.batch) ≤
          linesOf (backlog.items.map Backlog.Item.batch) + batch.lineCount) := by
  generalize backlog.add now batch delay = result, backlog.add_added now batch delay = added
  cases added with
  | ignored | refused => exact .inl rfl
  | taken filled opened fits =>
    refine .inr ⟨by simp, fits, ?_⟩
    have perm := backlog.insert_makeRoom_perm (.schedule now batch delay)
    have lines := linesOf_perm (perm.map Backlog.Item.batch)
    simp only [List.map_append, List.map_cons, linesOf_append, linesOf_cons] at lines
    have same : (Backlog.Item.schedule now batch delay).batch = batch := rfl
    rw [same] at lines
    dsimp only
    omega

namespace State

variable {setup : Setup} {s t : State}

/-- The retry that the sending loop works on, if it works on one. -/
def retryInHand (setup : Setup) (s : State) : List Batch :=
  s.sending.batch?.toList.filter setup.isRetry

/-- All retries: those in the backlog, those that wait before the sending loop, and the one that it
works on. -/
def retries (setup : Setup) (s : State) : List Batch :=
  s.backlog.items.map Backlog.Item.batch ++ s.retryQueue ++ s.retryInHand setup

theorem linesOf_retries (setup : Setup) (s : State) : linesOf (s.retries setup) =
    linesOf (s.backlog.items.map Backlog.Item.batch) + linesOf s.retryQueue +
      linesOf (s.retryInHand setup) := by
  rw [retries, linesOf_append, linesOf_append]

/-! ## The tasks that leave the sending loop alone -/

/-- There are no more lines to be tried again than before, and the sending loop is where it was. -/
def AddsNone (setup : Setup) (s t : State) : Prop :=
  linesOf (t.retries setup) ≤ linesOf (s.retries setup) ∧ t.sending = s.sending

theorem addsNone_of_eq (items : t.backlog.items = s.backlog.items)
    (queue : t.retryQueue = s.retryQueue) (sending : t.sending = s.sending) :
    AddsNone setup s t :=
  ⟨by simp only [retries, retryInHand, items, queue, sending, le_refl], sending⟩

theorem addsNone_withBacklog {outcome : Backlog × List Batch}
    (handed : outcome.2 ++ outcome.1.items.map Backlog.Item.batch =
      s.backlog.items.map Backlog.Item.batch) : AddsNone setup s (s.withBacklog outcome) := by
  have lines := congrArg linesOf handed
  rw [linesOf_append] at lines
  rw [withBacklog_eq]
  refine ⟨?_, rfl⟩
  simp only [linesOf_retries, retryInHand, ← lines]
  split
  · omega
  · rw [linesOf_append]
    omega

theorem addsNone_of_buffering? (taken : s.buffering? setup = some t) : AddsNone setup s t := by
  have rear := rear_of_buffering? taken
  have backlog : t.backlog = s.backlog := congrArg Rear.backlog rear
  exact addsNone_of_eq (congrArg Backlog.items backlog) (congrArg Rear.retryQueue rear)
    (congrArg Rear.sending rear)

theorem addsNone_of_alarm? (taken : s.alarm? = some t) : AddsNone setup s t := by
  obtain ⟨_, rfl⟩ := fire_of_alarm? taken
  exact addsNone_withBacklog (s.backlog.fire_perm s.now)

theorem addsNone_of_served {request : Request} (served : Served setup s request t) :
    AddsNone setup s t := by
  have released : AddsNone setup s (s.withBacklog s.backlog.releaseAll) :=
    addsNone_withBacklog (by simp [Backlog.releaseAll])
  cases served with
  | flushStopped | flush => exact released
  | giveUp =>
    refine addsNone_of_eq ?_ rfl rfl
    unfold giveUp
    dsimp only
    split <;> rfl
  | _ => exact addsNone_of_eq rfl rfl rfl

theorem addsNone_of_client? (taken : s.client? setup = some t) : AddsNone setup s t := by
  cases action_of_client? taken with
  | @endWait wait =>
    cases wait with
    | bothLoops residual =>
      rw [endWait_bothLoops]
      exact addsNone_of_eq rfl rfl rfl
    | _ => exact addsNone_of_eq rfl rfl rfl
  | @serve request rest _ free asked served =>
    exact addsNone_of_served (s := { s with requests := rest }) served

/-! ## The sending loop -/

def CallsFresh (setup : Setup) (s : State) : Prop :=
  ∃ call, s.sending = .calling call ∧ setup.isRetry call.batch = false

theorem not_callsFresh (free : s.sending.batch? = none) : ¬ s.CallsFresh setup := by
  rintro ⟨call, busy, _⟩
  simp [busy, Sending.batch?] at free

/-- What a step does to the lines of the retries: none are added but those of a fresh batch that
failed, and a fresh batch is taken up only when all retries are in the backlog. -/
inductive Shift (setup : Setup) (s t : State) : Prop
  | keeps (lines : linesOf (t.retries setup) ≤ linesOf (s.retries setup))
      (fresh : t.CallsFresh setup → s.CallsFresh setup)
  | takesFresh (lines : linesOf (t.retries setup) ≤ t.backlog.size)
  | admits (item : Backlog.Item) (delay : Nat) (fresh : s.CallsFresh setup)
      (ended : ¬ t.CallsFresh setup) (admitted : .backlog (.scheduled item delay) ∈ t.events)
      (first : item.batch.remaining + 1 = setup.maxRetries)
      (fits : item.batch.lineCount ≤ s.backlog.limit)
      (lines : linesOf (t.retries setup) ≤ linesOf (s.retries setup) + item.batch.lineCount)

/-- What is taken up may be sent, and is then the one retry in hand. -/
theorem lines_of_takenUp (idle : s.sending = .idle) {batch : Batch}
    (taken : TakenUp setup s batch t) :
    linesOf (t.retries setup) ≤
      linesOf (s.retries setup) + linesOf ([batch].filter setup.isRetry) := by
  cases taken with
  | expired => exact Nat.le_add_right _ _
  | called => simp [retries, retryInHand, Sending.batch?, idle, Nat.add_assoc]

theorem callsFresh_of_takenUp (idle : s.sending = .idle) {batch : Batch}
    (taken : TakenUp setup s batch t) (fresh : t.CallsFresh setup) :
    setup.isRetry batch = false := by
  obtain ⟨call, calls, fresh⟩ := fresh
  cases taken with
  | expired => simp [idle] at calls
  | called =>
    obtain rfl := Sending.calling.inj calls
    exact fresh

/-- A retry goes from before the sending loop into its hands. -/
theorem shift_of_again {batch : Batch} {rest : List Batch} (idle : s.sending = .idle)
    (queue : s.retryQueue = batch :: rest) (isRetry : setup.isRetry batch)
    (taken : TakenUp setup { s with retryQueue := rest } batch t) : Shift setup s t := by
  have old (fresh : t.CallsFresh setup) : setup.isRetry batch = false :=
    callsFresh_of_takenUp (by exact idle) taken fresh
  refine .keeps ?_ fun fresh ↦ absurd (old fresh) (by simp [isRetry])
  calc linesOf (t.retries setup)
    _ ≤ linesOf (retries setup { s with retryQueue := rest }) +
        linesOf ([batch].filter setup.isRetry) := lines_of_takenUp (by exact idle) taken
    _ = linesOf (retries setup { s with retryQueue := rest }) + batch.lineCount := by
      simp [isRetry]
    _ = linesOf (s.retries setup) := by
      simp only [linesOf_retries, retryInHand, queue, linesOf_cons]
      omega

/-- A fresh batch is taken up when all retries are in the backlog. -/
theorem shift_of_fresh (measured : s.backlog.Measured) {batch : Batch} {rest : List Parcel}
    (idle : s.sending = .idle) (noRetry : s.retryQueue = [])
    (isFresh : setup.isRetry batch = false)
    (taken : TakenUp setup { s with batchQueue := rest } batch t) : Shift setup s t := by
  have backlog : t.backlog = s.backlog := by cases taken <;> rfl
  refine .takesFresh ?_
  calc linesOf (t.retries setup)
    _ ≤ linesOf (s.retries setup) + linesOf ([batch].filter setup.isRetry) :=
      lines_of_takenUp (s := { s with batchQueue := rest }) idle taken
    _ = linesOf (s.backlog.items.map Backlog.Item.batch) := by
      simp [linesOf_retries, retryInHand, noRetry, idle, Sending.batch?, isFresh]
    _ = t.backlog.size := by rw [linesOf_items measured, backlog]

/-- When a call ends, its batch is added to what the backlog holds, or nothing is. -/
theorem backlog_of_callEnded {call : Call} (ended : CallEnded setup s call t) :
    let again : Batch := { call.batch with remaining := call.batch.remaining - 1 }
    t.backlog.items = s.backlog.items ∨
      0 < call.batch.remaining ∧ call.batch.lineCount ≤ s.backlog.limit ∧
      (∃ delay, .backlog (.scheduled (.schedule s.now again delay) delay) ∈ t.events) ∧
      linesOf (t.backlog.items.map Backlog.Item.batch) ≤
        linesOf (s.backlog.items.map Backlog.Item.batch) + call.batch.lineCount := by
  cases ended with
  | crashed =>
    refine .inl ?_
    dsimp only
    split <;> rfl
  | delivered | abandoned => exact .inl rfl
  | @retried took error delay added failure wanted left isDelay isAdded =>
    rcases linesOf_add s.backlog s.now _ delay with ignored | ⟨admitted, fits, lines⟩
    · exact .inl (isAdded ▸ congrArg Backlog.items ignored)
    · rw [← isAdded] at admitted lines
      exact .inr ⟨left, fits, ⟨delay, by simp [events, admitted]⟩, lines⟩

/-- A fresh batch that failed is the one thing that can come on top of the retries. -/
theorem shift_of_callEnded (sorted : s.ledger.Sorted setup) {call : Call}
    (busy : s.sending = .calling call) (ended : CallEnded setup s call t) : Shift setup s t := by
  obtain ⟨idle, queue⟩ :
      t.sending.batch? = none ∧ linesOf t.retryQueue ≤ linesOf s.retryQueue := by
    cases ended with
    | crashed => exact ⟨rfl, Nat.zero_le _⟩
    | _ => exact ⟨rfl, le_rfl⟩
  have before : linesOf (s.retries setup) = linesOf (s.backlog.items.map Backlog.Item.batch) +
      linesOf s.retryQueue + linesOf ([call.batch].filter setup.isRetry) := by
    simp [linesOf_retries, retryInHand, busy, Sending.batch?]
  have after : linesOf (t.retries setup) =
      linesOf (t.backlog.items.map Backlog.Item.batch) + linesOf t.retryQueue := by
    simp [linesOf_retries, retryInHand, idle]
  have calm : ¬ t.CallsFresh setup := not_callsFresh idle
  rcases backlog_of_callEnded ended with same | ⟨left, fits, ⟨delay, admitted⟩, lines⟩
  · refine .keeps ?_ fun fresh ↦ absurd fresh calm
    rw [after, before, same]
    omega
  cases isRetry : setup.isRetry call.batch with
  | true =>
    refine .keeps ?_ fun fresh ↦ absurd fresh calm
    simp only [List.filter_cons, isRetry, if_true, List.filter_nil, linesOf_cons, linesOf_nil]
      at before
    omega
  | false =>
    have few := sorted.calling call busy
    have all : ¬ call.batch.remaining < setup.maxRetries := by simpa [Setup.isRetry] using isRetry
    have first : call.batch.remaining - 1 + 1 = setup.maxRetries := by omega
    have more : linesOf (t.retries setup) ≤ linesOf (s.retries setup) + call.batch.lineCount := by
      omega
    exact .admits _ delay ⟨call, busy, isRetry⟩ calm admitted first fits more

theorem shift_of_sending? (sorted : s.ledger.Sorted setup) (measured : s.backlog.Measured)
    (taken : s.sending? setup = some t) : Shift setup s t := by
  cases action_of_sending? taken with
  | stop =>
    refine .keeps ?_ (by simp [CallsFresh, stopSending, record])
    simp [retries, retryInHand, stopSending, record, Sending.batch?, Backlog.close]
  | @again batch rest _ idle opened queue taken =>
    exact shift_of_again idle queue (sorted.retries batch (by simp [ledger, queue])) taken
  | @fresh batch rest _ idle opened noRetry parcels taken =>
    have remaining := sorted.conveyor batch (by simp [ledger, parcels])
    exact shift_of_fresh measured idle noRetry (by simp [Setup.isRetry, remaining]) taken
  | barrier => exact .keeps le_rfl id
  | endCall busy isOver ended => exact shift_of_callEnded sorted busy ended

theorem shift_of_step? (sorted : s.ledger.Sorted setup) (measured : s.backlog.Measured)
    {task : Task} (taken : s.step? setup task = some t) : Shift setup s t := by
  have keeps (none : AddsNone setup s t) : Shift setup s t :=
    .keeps none.1 fun ⟨call, busy, fresh⟩ ↦ ⟨call, none.2 ▸ busy, fresh⟩
  cases task with
  | buffering => exact keeps (addsNone_of_buffering? taken)
  | alarm => exact keeps (addsNone_of_alarm? taken)
  | sending => exact shift_of_sending? sorted measured taken
  | client => exact keeps (addsNone_of_client? taken)

/-! ## The bound -/

/-- The lines to be tried again are within the limit, but for one batch that failed for the first
time. As long as a fresh batch is being sent there is none such. -/
structure Bounded (setup : Setup) (limit : Nat) (s : State) : Prop where
  calling : s.CallsFresh setup → linesOf (s.retries setup) ≤ limit
  lines : linesOf (s.retries setup) ≤ limit ∨ ∃ item delay,
    .backlog (.scheduled item delay) ∈ s.events ∧ item.batch.remaining + 1 = setup.maxRetries ∧
      item.batch.lineCount ≤ limit ∧ linesOf (s.retries setup) ≤ limit + item.batch.lineCount

theorem Bounded.shift {limit : Nat} (bounded : s.Bounded setup limit) (shift : Shift setup s t)
    (older : s.events ⊆ t.events) (limits : s.backlog.limit = limit)
    (size : t.backlog.size ≤ limit) : t.Bounded setup limit := by
  cases shift with
  | keeps lines fresh =>
    refine ⟨fun calls ↦ lines.trans (bounded.calling (fresh calls)), ?_⟩
    rcases bounded.lines with few | ⟨item, delay, admitted, first, fits, more⟩
    · exact .inl (lines.trans few)
    · exact .inr ⟨item, delay, older admitted, first, fits, lines.trans more⟩
  | takesFresh lines => exact ⟨fun _ ↦ lines.trans size, .inl (lines.trans size)⟩
  | admits item delay fresh ended admitted first fits lines =>
    have few := bounded.calling fresh
    refine ⟨fun calls ↦ absurd calls ended, .inr ⟨item, delay, admitted, first, limits ▸ fits, ?_⟩⟩
    omega

end State

/-! ## Taking up a batch -/

/-- The batch that the sending loop took up, be it that its time was over. -/
def Event.takenUp? : Event → Option Batch
  | called batch _ | expired batch _ => some batch
  | _ => none

@[simp]
theorem filterMap_takenUp?_reports (setup : Setup) (error : DeliveryError) (batch : Batch)
    (attempt : Nat) : (reports setup error batch attempt).filterMap Event.takenUp? = [] := by
  unfold reports
  split <;> rfl

namespace State

variable {setup : Setup} {s t : State}

theorem filterMap_of_takenUp {batch : Batch} (taken : TakenUp setup s batch t) :
    ∃ block, t.events = block ++ s.events ∧ block.filterMap Event.takenUp? = [batch] := by
  cases taken with
  | expired | called =>
    exact ⟨_, events_of_history rfl, by simp [Event.takenUp?]⟩

/-- A step of the sending loop that takes up a fresh batch finds no retry. -/
theorem retryQueue_of_sending? (sorted : s.ledger.Sorted setup)
    (taken : s.sending? setup = some t) :
    ∃ block, t.events = block ++ s.events ∧
      ∀ batch ∈ block.filterMap Event.takenUp?, setup.isRetry batch = false →
        s.retryQueue = [] := by
  cases action_of_sending? taken with
  | stop => exact ⟨[.sendingStopped], rfl, by simp [Event.takenUp?]⟩
  | @again batch rest _ idle opened retries taken =>
    obtain ⟨block, events, only⟩ := filterMap_of_takenUp taken
    refine ⟨block, events, fun other there fresh ↦ ?_⟩
    obtain rfl : other = batch := by simpa [only] using there
    have isRetry := sorted.retries other (by simp [ledger, retries])
    simp [isRetry] at fresh
  | fresh idle opened noRetry parcels taken =>
    obtain ⟨block, events, _⟩ := filterMap_of_takenUp taken
    exact ⟨block, events, fun _ _ _ ↦ noRetry⟩
  | barrier => exact ⟨[], rfl, by simp⟩
  | endCall busy isOver ended =>
    cases ended with
    | crashed | delivered => exact ⟨_, events_of_history rfl, by simp [Event.takenUp?]⟩
    | abandoned | retried =>
      exact ⟨_, events_of_history rfl, by
        simp [List.filterMap_cons, List.filterMap_map, Function.comp_def, Event.takenUp?]⟩

end State

namespace Reachable

variable {setup : Setup} {s t : State}

theorem events_subset (reachable : Reachable setup s) (move : Move setup s t) :
    s.events ⊆ t.events :=
  (Ledger.Steps.suffix (reachable.steps_of_runs (.single move))).subset

theorem bounded (reachable : Reachable setup s) :
    s.Bounded setup setup.options.retryBufferLimit.toNat := by
  induction reachable with
  | start started =>
    rw [(start?_eq_ok started).2]
    exact ⟨fun _ ↦ Nat.zero_le _, .inl (Nat.zero_le _)⟩
  | move before move ih =>
    have older := before.events_subset move
    cases move with
    | step task taken =>
      have within := (before.move (.step task taken)).limited
      exact ih.shift (State.shift_of_step? before.sorted before.measured taken) older
        before.limited.limit_eq within.size_le
    | pass now later => exact ⟨ih.calling, ih.lines⟩
    | ask requests idle => exact ⟨ih.calling, ih.lines⟩

/-- All lines that are to be tried again, in the backlog, before the sending loop or in its hands,
are within the limit of the backlog, but for one fresh batch that it took in; so they are never
more than twice that limit. A fresh batch is taken up only when no retry waits for the loop. -/
theorem retries_le (reachable : Reachable setup s) :
    let limit := setup.options.retryBufferLimit.toNat
    let lines := s.backlog.size + linesOf s.retryQueue + linesOf (s.retryInHand setup)
    (lines ≤ limit ∨ ∃ item delay, .backlog (.scheduled item delay) ∈ s.events ∧
        item.batch.remaining + 1 = setup.maxRetries ∧ lines ≤ limit + item.batch.lineCount) ∧
      lines ≤ 2 * limit ∧
      ∀ t, s.step? setup .sending = some t → ∃ block, t.events = block ++ s.events ∧
        ∀ batch ∈ block.filterMap Event.takenUp?, setup.isRetry batch = false →
          s.retryQueue = [] := by
  have lines : linesOf (s.retries setup) =
      s.backlog.size + linesOf s.retryQueue + linesOf (s.retryInHand setup) := by
    rw [State.linesOf_retries, linesOf_items reachable.measured]
  have bounded := lines ▸ reachable.bounded.lines
  refine ⟨?_, ?_, fun t taken ↦ State.retryQueue_of_sending? reachable.sorted taken⟩
  · exact bounded.imp_right fun ⟨item, delay, admitted, first, _, more⟩ ↦
      ⟨item, delay, admitted, first, more⟩
  · rcases bounded with few | ⟨item, delay, _, _, fits, more⟩ <;> omega

end Reachable

/-- A transport that refuses the first batch at once and the others after a second, and a backlog
for one line that it gives back after half a second. -/
def Setup.squeezed : Setup where
  options := { batchSize := 1, retryBufferLimit := 1 }
  reply asked := .answer (if asked = 0 then 0 else 1000000000) (some (.server 503 "busy" none))
  verdict? := none
  delay _ _ _ := 500000000

/-- A writer that has two batches to try again: one in its hands, and one in the backlog. -/
def State.overfull : State :=
  let asked := { start .squeezed with requests := [.line [65], .line [66]] }.settle .squeezed
  { { asked with now := 500000000 }.settle .squeezed with now := 1000000000 }.settle .squeezed

theorem Reachable.overfull : Reachable .squeezed State.overfull :=
  (Reachable.start rfl).runs (((State.settle_ask_runs _ rfl).trans
    (State.settle_pass_runs _ (by decide +kernel))).trans
      (State.settle_pass_runs _ (by decide +kernel)))

theorem retries_le_overfull :
    State.overfull.backlog.size + linesOf State.overfull.retryQueue +
        linesOf (State.overfull.retryInHand .squeezed) = 2 ∧
      2 ≤ 2 * Setup.squeezed.options.retryBufferLimit.toNat :=
  have two : State.overfull.backlog.size + linesOf State.overfull.retryQueue +
      linesOf (State.overfull.retryInHand .squeezed) = 2 := by decide +kernel
  ⟨two, two ▸ Reachable.overfull.retries_le.2.1⟩

end LineDelivery.Pipeline
