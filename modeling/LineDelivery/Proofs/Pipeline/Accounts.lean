import LineDelivery.Proofs.LineBuffer.Contents
import LineDelivery.Proofs.Pipeline.Ledger
import Mathlib.Algebra.Order.Group.Multiset
import Mathlib.Tactic.Abel

/-!
# The accounts of a ledger

The events say which chunks came in, which batches were formed of them and which of these are
finished. A ledger agrees with its events: the chunks of the formed batches, followed by those that
are in no batch yet, are the accepted ones, and a formed batch is either somewhere on its way or
finished. A torn ledger may have lost some, but has none twice.
-/

namespace LineDelivery.Pipeline

/-! ## What the events say -/

namespace Event

def accepted? : Event → Option Bytes
  | accepted chunk => some chunk
  | _ => none

def formed? : Event → Option Batch
  | formed batch => some batch
  | _ => none

/-- The batch that is finished: delivered, dropped after a failure or in the end, or removed from
the backlog. -/
def finished? : Event → Option Batch
  | delivered batch _ => some batch
  | abandoned batch _ _ => some batch
  | expired batch _ => some batch
  | backlog (.removed item _) => some item.batch
  | _ => none

/-- The handler was called for a batch, and its verdict counts. -/
def asks : Event → Bool
  | reported _ (some _) _ => true
  | _ => false

variable {event : Event}

theorem IsAside.accepted? (aside : event.IsAside) : event.accepted? = none := by
  cases event with
  | accepted chunk => exact aside.elim
  | _ => rfl

theorem IsAside.formed? (aside : event.IsAside) : event.formed? = none := by
  cases event with
  | formed batch => exact aside.elim
  | _ => rfl

theorem IsAside.finished? (aside : event.IsAside) : event.finished? = none := by
  cases event with
  | delivered batch attempt => exact aside.elim
  | abandoned batch attempt error => exact aside.elim
  | expired batch attempt => exact aside.elim
  | backlog event => cases event <;> first | rfl | exact aside.elim
  | _ => rfl

theorem IsAside.asks (aside : event.IsAside) : event.asks = false := by
  cases event with
  | reported error batch? attempt => cases batch? <;> first | rfl | exact aside.elim
  | _ => rfl

end Event

/-- The accepted chunks, in order. -/
def acceptedIn (events : List Event) : List Bytes :=
  (events.filterMap Event.accepted?).reverse

/-- The formed batches, in order. -/
def formedIn (events : List Event) : List Batch :=
  (events.filterMap Event.formed?).reverse

/-- The finished batches, the newest first. -/
def finishedIn (events : List Event) : List Batch :=
  events.filterMap Event.finished?

/-- How often the handler was asked for a verdict. -/
def askedIn (events : List Event) : Nat :=
  events.countP Event.asks

section

variable (event : Event) (events : List Event)

@[simp]
theorem acceptedIn_nil : acceptedIn [] = [] := rfl

@[simp]
theorem formedIn_nil : formedIn [] = [] := rfl

@[simp]
theorem finishedIn_nil : finishedIn [] = [] := rfl

@[simp]
theorem askedIn_nil : askedIn [] = 0 := rfl

@[simp]
theorem acceptedIn_cons :
    acceptedIn (event :: events) = acceptedIn events ++ event.accepted?.toList := by
  simp only [acceptedIn, List.filterMap_cons]
  cases event.accepted? <;> simp

@[simp]
theorem formedIn_cons : formedIn (event :: events) = formedIn events ++ event.formed?.toList := by
  simp only [formedIn, List.filterMap_cons]
  cases event.formed? <;> simp

@[simp]
theorem finishedIn_cons :
    finishedIn (event :: events) = event.finished?.toList ++ finishedIn events := by
  simp only [finishedIn, List.filterMap_cons]
  cases event.finished? <;> simp

@[simp]
theorem askedIn_cons :
    askedIn (event :: events) = askedIn events + if event.asks then 1 else 0 :=
  List.countP_cons

theorem acceptedIn_append (newer older : List Event) :
    acceptedIn (newer ++ older) = acceptedIn older ++ acceptedIn newer := by
  simp [acceptedIn]

theorem formedIn_append (newer older : List Event) :
    formedIn (newer ++ older) = formedIn older ++ formedIn newer := by
  simp [formedIn]

theorem mem_formedIn {batch : Batch} {events : List Event} :
    batch ∈ formedIn events ↔ .formed batch ∈ events := by
  simp only [formedIn, List.mem_reverse, List.mem_filterMap]
  constructor
  · rintro ⟨event, there, isFormed⟩
    cases event with
    | formed other => exact Option.some.inj isFormed ▸ there
    | _ => simp [Event.formed?] at isFormed
  · exact fun there ↦ ⟨_, there, rfl⟩

theorem acceptedIn_quiet {block : List Event} (older : List Event)
    (quiet : ∀ event ∈ block, event.accepted? = none) :
    acceptedIn (block ++ older) = acceptedIn older := by
  simp [acceptedIn, List.filterMap_eq_nil_iff.mpr quiet]

theorem formedIn_quiet {block : List Event} (older : List Event)
    (quiet : ∀ event ∈ block, event.formed? = none) :
    formedIn (block ++ older) = formedIn older := by
  simp [formedIn, List.filterMap_eq_nil_iff.mpr quiet]

variable (setup : Setup) (error : DeliveryError) (batch : Batch) (attempt : Nat)

@[simp]
theorem acceptedIn_reports :
    acceptedIn (reports setup error batch attempt ++ events) = acceptedIn events := by
  unfold reports
  split <;> simp [Event.accepted?]

@[simp]
theorem formedIn_reports :
    formedIn (reports setup error batch attempt ++ events) = formedIn events := by
  unfold reports
  split <;> simp [Event.formed?]

@[simp]
theorem finishedIn_reports :
    finishedIn (reports setup error batch attempt ++ events) = finishedIn events := by
  unfold reports
  split <;> simp [Event.finished?]

@[simp]
theorem askedIn_reports :
    askedIn (reports setup error batch attempt ++ events) =
      askedIn events + (reports setup error batch attempt).length := by
  unfold reports
  split <;> simp [Event.asks]

end

/-! ## What the ledger holds -/

def Parcel.batch? : Parcel → Option Batch
  | .batch held => some held
  | .barrier => none

def Sending.batch? : Sending → Option Batch
  | .calling call => some call.batch
  | _ => none

/-- A batch as it was when it was formed. -/
def renewed (setup : Setup) (batch : Batch) : Batch :=
  { batch with remaining := setup.maxRetries }

namespace Ledger

/-- The batches that wait: before the sending loop or in the backlog. -/
def waiting (l : Ledger) : Multiset Batch :=
  (l.conveyor.filterMap Parcel.batch? : List Batch) + (l.retries : Multiset Batch) + l.held

/-- All batches on their way: those that wait, and the one in the transport's hands. -/
def batches (l : Ledger) : Multiset Batch :=
  (l.sending.batch?.toList : Multiset Batch) + l.waiting

variable {setup : Setup} {l m : Ledger} {batch : Batch}

theorem Takes.waiting_eq (takes : l.Takes batch m) : l.waiting = batch ::ₘ m.waiting := by
  cases takes with
  | retry first =>
    simp only [waiting, first]
    rw [← Multiset.cons_coe, Multiset.add_cons, Multiset.cons_add]
  | fresh noRetry first =>
    simp only [waiting, first, Parcel.batch?, List.filterMap_cons]
    rw [← Multiset.cons_coe, Multiset.cons_add, Multiset.cons_add]

theorem Takes.events_eq (takes : l.Takes batch m) : m.events = l.events := by
  cases takes <;> rfl

theorem Takes.formed_eq (takes : l.Takes batch m) : m.formed = l.formed := by
  cases takes <;> rfl

theorem Takes.torn_eq (takes : l.Takes batch m) : m.torn = l.torn := by
  cases takes <;> rfl

/-! ## The chunks -/

/-- What the formed batches hold and what is in no batch yet is what was accepted, in order. -/
def ChunksAccounted (l : Ledger) : Prop :=
  l.torn = false →
    (formedIn l.events).flatMap Batch.chunks ++ l.upstream =
      (acceptedIn l.events).map Line.terminate

theorem Step.chunksAccounted (step : Step setup l m) (accounted : l.ChunksAccounted) :
    m.ChunksAccounted := by
  intro whole
  cases step with
  | aside event aside => simpa [aside.accepted?, aside.formed?] using accounted whole
  | accept chunk filled => simp [Event.accepted?, Event.formed?, ← accounted whole]
  | form cut filled serial remaining =>
    simp [Event.accepted?, Event.formed?, ← accounted whole, cut]
  | expire idle takes =>
    cases takes <;> simpa [Event.accepted?, Event.formed?] using accounted whole
  | call call idle takes attempt =>
    cases takes <;> simpa [Event.accepted?, Event.formed?] using accounted whole
  | crash => simp at whole
  | tear => simp at whole
  | lose torn => simp [torn] at whole
  | _ => simpa [Event.accepted?, Event.formed?] using accounted whole

/-! ## The batches -/

/-- All formed batches that are not lost, those that are finished too. -/
def known (l : Ledger) : Multiset Batch :=
  (finishedIn l.events : Multiset Batch) + l.batches

/-- What a step does to the batches known. -/
inductive Turnover (setup : Setup) (l m : Ledger) : Prop
  | same (known : m.known = l.known) (formed : formedIn m.events = formedIn l.events)
  | formed (batch : Batch) (remaining : batch.remaining = setup.maxRetries)
      (known : m.known = batch ::ₘ l.known)
      (formed : formedIn m.events = formedIn l.events ++ [batch])
  | retried (batch : Batch) (rest : Multiset Batch) (before : l.known = batch ::ₘ rest)
      (after : m.known = { batch with remaining := batch.remaining - 1 } ::ₘ rest)
      (formed : formedIn m.events = formedIn l.events)
  | lost (torn : m.torn) (known : m.known ≤ l.known)
      (formed : formedIn m.events = formedIn l.events)

theorem Step.turnover (step : Step setup l m) : Turnover setup l m := by
  cases step with
  | aside event aside =>
    exact .same (by simp [known, batches, waiting, aside.finished?]) (by simp [aside.formed?])
  | accept chunk filled =>
    exact .same (by simp [known, batches, waiting, Event.finished?]) (by simp [Event.formed?])
  | @form batch rest cut filled serial remaining =>
    apply Turnover.formed batch remaining
    · simp only [known, batches, waiting, finishedIn_cons, Event.finished?, List.filterMap_append,
        List.filterMap_cons, List.filterMap_nil, Parcel.batch?, ← Multiset.coe_add,
        ← Multiset.singleton_add, Multiset.coe_singleton, Option.toList_none, Multiset.coe_nil]
      abel
    · simp [Event.formed?]
  | sendBarrier =>
    exact .same (by simp [known, batches, waiting, List.filterMap_cons, Parcel.batch?]) rfl
  | meetBarrier idle noRetry first =>
    exact .same (by simp [known, batches, waiting, first, List.filterMap_cons, Parcel.batch?]) rfl
  | @expire m batch idle takes =>
    apply Turnover.same
    · simp [known, batches, takes.events_eq, idle, takes.sending_eq, Sending.batch?,
        takes.waiting_eq, Event.finished?, ← Multiset.cons_coe]
      rfl
    · simp [Event.formed?, takes.events_eq]
  | call call idle takes attempt =>
    apply Turnover.same
    · simp [known, batches, takes.events_eq, idle, Sending.batch?, takes.waiting_eq,
        Event.finished?]
      rfl
    · simp [Event.formed?, takes.events_eq]
  | crash busy =>
    apply Turnover.lost rfl
    · simpa [known, batches, waiting, busy, Event.finished?, Sending.batch?] using
        Multiset.le_cons_self _ _
    · simp [Event.formed?]
  | deliver busy | abandon busy =>
    apply Turnover.same
    · simp [known, batches, waiting, busy, Sending.batch?, Event.finished?, ← Multiset.cons_coe]
    · simp [Event.formed?]
  | @retry call took error delay busy failure wanted left =>
    apply Turnover.retried call.batch ((finishedIn l.events : Multiset Batch) + l.waiting)
    · simp [known, batches, busy, Sending.batch?]
    · simp [known, batches, waiting, Sending.batch?, Event.finished?]
    · simp [Event.formed?]
  | release held =>
    apply Turnover.same
    · simp only [known, batches, waiting, held, finishedIn_cons, Event.finished?,
        ← Multiset.coe_add, ← Multiset.singleton_add, Multiset.coe_singleton, Option.toList_none,
        Multiset.coe_nil]
      abel
    · simp [Event.formed?]
  | remove limit held =>
    apply Turnover.same
    · simp [known, batches, waiting, held, Event.finished?, ← Multiset.cons_coe]
    · simp [Event.formed?]
  | tear => exact .same rfl rfl
  | stop idle torn => exact .same (by simp [known, batches, waiting, idle, Sending.batch?]) rfl
  | lose torn upstream_sublist conveyor_sublist retries_sublist held_le =>
    apply Turnover.lost
    · exact torn
    · have fewer := (conveyor_sublist.filterMap Parcel.batch?).subperm
      exact add_le_add_right (add_le_add_right (add_le_add (add_le_add fewer
        retries_sublist.subperm) held_le) _) _
    · rfl

/-- A batch that was formed is known as it was formed, and a batch that is known was formed; unless
something was lost, none is missing. -/
structure BatchesAccounted (setup : Setup) (l : Ledger) : Prop where
  once : l.known.map (renewed setup) ≤ (formedIn l.events : Multiset Batch)
  all : l.torn = false → l.known.map (renewed setup) = (formedIn l.events : Multiset Batch)

theorem Step.torn_eq_false (step : Step setup l m) (whole : m.torn = false) : l.torn = false := by
  cases step with
  | expire idle takes => exact takes.torn_eq ▸ whole
  | call call idle takes attempt => exact takes.torn_eq ▸ whole
  | crash => simp at whole
  | tear => simp at whole
  | _ => exact whole

theorem Step.batchesAccounted (step : Step setup l m) (accounted : BatchesAccounted setup l) :
    BatchesAccounted setup m := by
  have all whole := accounted.all (step.torn_eq_false whole)
  cases step.turnover with
  | same known formed =>
    rw [← known, ← formed] at all
    exact ⟨known ▸ formed ▸ accounted.once, all⟩
  | formed batch remaining known formed =>
    have fresh : renewed setup batch = batch := by rw [renewed, ← remaining]
    have after : m.known.map (renewed setup) = batch ::ₘ l.known.map (renewed setup) := by
      rw [known, Multiset.map_cons, fresh]
    have grown : (formedIn m.events : Multiset Batch) = batch ::ₘ formedIn l.events := by
      rw [formed, ← Multiset.coe_add, Multiset.coe_singleton, add_comm, Multiset.singleton_add]
    constructor
    · rw [after, grown]
      exact Multiset.cons_le_cons batch accounted.once
    · intro whole
      rw [after, grown, all whole]
  | retried batch rest before after formed =>
    have same : m.known.map (renewed setup) = l.known.map (renewed setup) := by
      rw [before, after, Multiset.map_cons, Multiset.map_cons]
      rfl
    rw [← same, ← formed] at all
    exact ⟨same ▸ formed ▸ accounted.once, all⟩
  | lost torn known formed =>
    constructor
    · rw [formed]
      exact (Multiset.map_le_map known).trans accounted.once
    · intro whole
      simp [torn] at whole

/-- Nothing is empty, the batches are numbered as they are formed, and the verdicts are counted. -/
structure Fresh (setup : Setup) (l : Ledger) : Prop where
  upstream : ∀ chunk ∈ l.upstream, chunk ≠ []
  chunks : ∀ batch ∈ formedIn l.events, ∀ chunk ∈ batch.chunks, chunk ≠ []
  filled : ∀ batch ∈ formedIn l.events, batch.chunks ≠ []
  remaining : ∀ batch ∈ formedIn l.events, batch.remaining = setup.maxRetries
  serials : (formedIn l.events).map Batch.serial = List.range l.formed
  verdicts : l.verdicts = askedIn l.events

theorem Step.fresh (step : Step setup l m) (fresh : Fresh setup l) : Fresh setup m := by
  obtain ⟨upstream, chunks, filled, remaining, serials, verdicts⟩ := fresh
  cases step with
  | aside event aside => constructor <;> simpa [aside.formed?, aside.asks]
  | accept chunk isFilled =>
    have terminated := Line.terminate_ne_nil isFilled
    constructor
    case upstream => simpa [or_imp, forall_and, terminated] using upstream
    all_goals simpa [Event.formed?, Event.asks]
  | form cut isFilled serial isNew =>
    simp only [cut, List.mem_append, or_imp, forall_and] at upstream
    constructor
    case upstream => exact upstream.2
    case chunks => simpa [Event.formed?, or_imp, forall_and] using ⟨chunks, upstream.1⟩
    case filled => simpa [Event.formed?, or_imp, forall_and] using ⟨filled, isFilled⟩
    case remaining => simpa [Event.formed?, or_imp, forall_and] using ⟨remaining, isNew⟩
    case serials => simp [Event.formed?, List.range_succ, serials, serial]
    case verdicts => simpa [Event.asks]
  | expire idle takes => cases takes <;> constructor <;> simpa [Event.formed?, Event.asks]
  | call call idle takes attempt =>
    cases takes <;> constructor <;> simpa [Event.formed?, Event.asks]
  | lose torn upstream_sublist conveyor_sublist retries_sublist held_le =>
    exact ⟨fun chunk left ↦ upstream chunk (upstream_sublist.subset left), chunks, filled,
      remaining, serials, verdicts⟩
  | _ => constructor <;> simpa [Event.formed?, Event.asks]

/-! ## Runs -/

/-- A ledger agrees with its events. -/
structure Accounted (setup : Setup) (l : Ledger) : Prop extends
  BatchesAccounted setup l, Fresh setup l where
  ordered : l.ChunksAccounted

theorem accounted_opening {event : Event} (aside : event.IsAside) :
    Accounted setup (opening event) where
  once := by simp [opening, known, batches, waiting, aside.finished?, aside.formed?, Sending.batch?]
  all := by simp [opening, known, batches, waiting, aside.finished?, aside.formed?, Sending.batch?]
  upstream := by simp [opening]
  chunks := by simp [opening, aside.formed?]
  filled := by simp [opening, aside.formed?]
  remaining := by simp [opening, aside.formed?]
  serials := by simp [opening, aside.formed?]
  verdicts := by simp [opening, aside.asks]
  ordered := by simp [opening, ChunksAccounted, aside.formed?, aside.accepted?]

theorem Accounted.steps (accounted : Accounted setup l) (steps : Steps setup l m) :
    Accounted setup m := by
  induction steps with
  | refl => exact accounted
  | tail _ step ih =>
    exact ⟨step.batchesAccounted ih.toBatchesAccounted, step.fresh ih.toFresh,
      step.chunksAccounted ih.ordered⟩

namespace Accounted

variable (accounted : Accounted setup l)

include accounted

theorem renewed_mem_formedIn (known : batch ∈ l.known) :
    renewed setup batch ∈ formedIn l.events :=
  Multiset.mem_of_le accounted.once (Multiset.mem_map_of_mem _ known)

/-- No two known batches have the same number. -/
theorem nodup_serials : (l.known.map Batch.serial).Nodup := by
  have few : (l.known.map (renewed setup)).map Batch.serial ≤
      ((formedIn l.events).map Batch.serial : List Nat) := Multiset.map_le_map accounted.once
  rw [Multiset.map_map, accounted.serials] at few
  exact Multiset.nodup_of_le few (Multiset.coe_nodup.mpr List.nodup_range)

theorem lines_ne_nil (known : batch ∈ l.known) : batch.lines ≠ [] := by
  have formed := accounted.renewed_mem_formedIn known
  obtain ⟨first, rest, chunks⟩ := List.exists_cons_of_ne_nil (accounted.filled _ formed)
  have filled : first ≠ [] := accounted.chunks _ formed first (by simp [chunks])
  change batch.chunks = first :: rest at chunks
  simp [Batch.lines, chunks, filled]

end Accounted

end Ledger

end LineDelivery.Pipeline
