import LineDelivery.Proofs.Pipeline.Effects
import Mathlib.Data.Multiset.AddSub
import Mathlib.Logic.Relation

/-!
# The ledger of a writer

A ledger keeps of a writer's state only where its chunks and batches are, and the events so far
without their instants. Its steps are the few things that can happen to a batch: it is formed,
taken up, sent, held, handed back and finished. A ledger that is not torn has lost nothing; it is
torn when a loop ends, the writer closes or the backlog refuses more batches.
-/

namespace LineDelivery.Pipeline

namespace Event

/-- An event that brings no chunk in, moves no batch and asks nobody about one. -/
def IsAside : Event → Prop
  | started _ _ | refused | lost | unencodable _ | flushing _ | gathered _ | cut _ => True
  | bufferingStopped _ | sendingStopped | crashNoticed | stopped _ _ => True
  | reported _ none _ => True
  | backlog (.scheduled _ _) | backlog (.discarded _) => True
  | _ => False

end Event

@[ext]
structure Ledger where
  /-- Terminated chunks that are in no batch yet, in the order in which they were accepted. -/
  upstream : List Bytes
  /-- What is on its way to the sending loop, first what goes first. -/
  conveyor : List Parcel
  retries : List Batch
  /-- The batches in the backlog. -/
  held : Multiset Batch
  sending : Sending
  formed : Nat
  verdicts : Nat
  torn : Bool
  /-- The newest first. -/
  events : List Event

namespace Ledger

/-- Taking a batch for the sending loop: a retry, or else the first of the conveyor. -/
inductive Takes (l : Ledger) : Batch → Ledger → Prop
  | retry {batch : Batch} {rest : List Batch} (first : l.retries = batch :: rest) :
      Takes l batch { l with retries := rest }
  | fresh {batch : Batch} {rest : List Parcel} (noRetry : l.retries = [])
      (first : l.conveyor = .batch batch :: rest) : Takes l batch { l with conveyor := rest }

theorem Takes.sending_eq {l m : Ledger} {batch : Batch} (takes : l.Takes batch m) :
    m.sending = l.sending := by
  cases takes <;> rfl

inductive Step (setup : Setup) : Ledger → Ledger → Prop
  | aside {l : Ledger} (event : Event) (aside : event.IsAside) :
      Step setup l { l with events := event :: l.events }
  | accept {l : Ledger} (chunk : Bytes) (filled : chunk ≠ []) :
      Step setup l
        { l with
          upstream := l.upstream ++ [Line.terminate chunk], events := .accepted chunk :: l.events }
  | form {l : Ledger} {batch : Batch} {rest : List Bytes}
      (cut : l.upstream = batch.chunks ++ rest) (filled : batch.chunks ≠ [])
      (serial : batch.serial = l.formed) (remaining : batch.remaining = setup.maxRetries) :
      Step setup l
        { l with
          upstream := rest
          conveyor := l.conveyor ++ [.batch batch]
          formed := l.formed + 1
          events := .formed batch :: l.events }
  | sendBarrier {l : Ledger} : Step setup l { l with conveyor := l.conveyor ++ [.barrier] }
  | meetBarrier {l : Ledger} {rest : List Parcel} (idle : l.sending = .idle)
      (noRetry : l.retries = []) (first : l.conveyor = .barrier :: rest) :
      Step setup l { l with conveyor := rest }
  | expire {l m : Ledger} {batch : Batch} (idle : l.sending = .idle) (takes : l.Takes batch m) :
      Step setup l
        { m with
          verdicts := m.verdicts +
            (reports setup .maxRetryTimeExceeded batch (State.attemptOf setup batch)).length
          events := reports setup .maxRetryTimeExceeded batch (State.attemptOf setup batch) ++
            .expired batch (State.attemptOf setup batch) :: m.events }
  | call {l m : Ledger} (call : Call) (idle : l.sending = .idle) (takes : l.Takes call.batch m)
      (attempt : call.attempt = State.attemptOf setup call.batch) :
      Step setup l
        { m with sending := .calling call, events := .called call.batch call.attempt :: m.events }
  | crash {l : Ledger} {call : Call} {took : Nat} (busy : l.sending = .calling call)
      (crash : setup.reply call.asked = .crash took) :
      Step setup l
        { l with
          sending := .crashed, torn := true, events := .crashed call.batch :: l.events }
  | deliver {l : Ledger} {call : Call} {took : Nat} (busy : l.sending = .calling call)
      (success : setup.reply call.asked = .answer took none) :
      Step setup l
        { l with
          sending := .idle
          events := .delivered call.batch call.attempt :: .backoffReset ::
            .answered call.batch call.attempt none :: l.events }
  | abandon {l : Ledger} {call : Call} {took : Nat} {error : DeliveryError}
      (busy : l.sending = .calling call)
      (failure : setup.reply call.asked = .answer took (some error))
      (final : (setup.wantsRetry l.verdicts error && 0 < call.batch.remaining) = false) :
      Step setup l
        { l with
          sending := .idle
          verdicts := l.verdicts + (reports setup error call.batch call.attempt).length
          events := .abandoned call.batch call.attempt error ::
            (reports setup error call.batch call.attempt ++
              .answered call.batch call.attempt (some error) :: l.events) }
  | retry {l : Ledger} {call : Call} {took : Nat} {error : DeliveryError} (delay : Nat)
      (busy : l.sending = .calling call)
      (failure : setup.reply call.asked = .answer took (some error))
      (wanted : setup.wantsRetry l.verdicts error) (left : 0 < call.batch.remaining) :
      Step setup l
        { l with
          sending := .idle
          held := { call.batch with remaining := call.batch.remaining - 1 } ::ₘ l.held
          verdicts := l.verdicts + (reports setup error call.batch call.attempt).length
          events := .retrying call.batch call.attempt error delay ::
            .delayed error call.attempt delay ::
            (reports setup error call.batch call.attempt ++
              .answered call.batch call.attempt (some error) :: l.events) }
  | release {l : Ledger} {batch : Batch} {rest : Multiset Batch} (held : l.held = batch ::ₘ rest) :
      Step setup l
        { l with
          retries := l.retries ++ [batch]
          held := rest
          events := .backlog (.released batch) :: l.events }
  | remove {l : Ledger} {item : Backlog.Item} {rest : Multiset Batch} (limit : Nat)
      (held : l.held = item.batch ::ₘ rest) :
      Step setup l
        { l with held := rest, events := .backlog (.removed item limit) :: l.events }
  | tear {l : Ledger} : Step setup l { l with torn := true }
  | stop {l : Ledger} (idle : l.sending = .idle) (torn : l.torn) :
      Step setup l { l with sending := .stopped }
  | lose {l : Ledger} {upstream : List Bytes} {conveyor : List Parcel} {retries : List Batch}
      {held : Multiset Batch} (torn : l.torn) (upstream_sublist : upstream.Sublist l.upstream)
      (conveyor_sublist : conveyor.Sublist l.conveyor)
      (retries_sublist : retries.Sublist l.retries) (held_le : held ≤ l.held) :
      Step setup l { l with upstream, conveyor, retries, held }

/-- Any number of steps. -/
abbrev Steps (setup : Setup) : Ledger → Ledger → Prop :=
  Relation.ReflTransGen (Step setup)

theorem Steps.reach {setup : Setup} {l m n : Ledger} (steps : Steps setup l m) (same : n = m) :
    Steps setup l n :=
  same ▸ steps

/-- The ledger of a writer that was just started. -/
def opening (event : Event) : Ledger where
  upstream := []
  conveyor := []
  retries := []
  held := 0
  sending := .idle
  formed := 0
  verdicts := 0
  torn := false
  events := [event]

theorem Steps.asides {setup : Setup} {events : List Event} (asides : ∀ event ∈ events, event.IsAside)
    (l : Ledger) : Steps setup l { l with events := events ++ l.events } := by
  induction events with
  | nil => exact .refl
  | cons event events ih =>
    refine .tail (ih fun other there ↦ asides other (.tail _ there)) ?_
    exact .aside event (asides event (.head _))

/-- Batches are handed back one after the other. -/
theorem Steps.release {setup : Setup} {l : Ledger} {batches : List Batch} {rest : Multiset Batch}
    (held : l.held = batches + rest) :
    Steps setup l
      { l with
        retries := l.retries ++ batches
        held := rest
        events := (batches.reverse.map fun batch ↦ .backlog (.released batch)) ++ l.events } := by
  induction batches generalizing l with
  | nil =>
    have same : l.held = rest := by simpa using held
    simpa [← same] using .refl
  | cons batch batches ih =>
    have first : l.held = batch ::ₘ (batches + rest) := by
      rw [held, ← Multiset.cons_coe, Multiset.cons_add]
    refine .head (.release first) ?_
    simpa using ih (l := { l with
      retries := l.retries ++ [batch], held := _,
      events := .backlog (.released batch) :: l.events }) rfl

/-- Batches are removed one after the other. -/
theorem Steps.remove {setup : Setup} {l : Ledger} {items : List Backlog.Item} (limit : Nat)
    {rest : Multiset Batch} (held : l.held = items.map Backlog.Item.batch + rest) :
    Steps setup l
      { l with
        held := rest
        events := (items.reverse.map fun item ↦ .backlog (.removed item limit)) ++ l.events } := by
  induction items generalizing l with
  | nil =>
    have same : l.held = rest := by simpa using held
    simpa [← same] using .refl
  | cons item items ih =>
    have first : l.held = item.batch ::ₘ (items.map Backlog.Item.batch + rest) := by
      rw [held, List.map_cons, ← Multiset.cons_coe, Multiset.cons_add]
    refine .head (.remove limit first) ?_
    simpa using ih (l := { l with
      held := _, events := .backlog (.removed item limit) :: l.events }) rfl

end Ledger

end LineDelivery.Pipeline
