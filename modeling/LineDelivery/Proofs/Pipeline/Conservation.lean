import LineDelivery.Proofs.Pipeline.Whole
import Mathlib.Data.Multiset.Bind

/-!
# No chunk is lost, doubled or split

Before closing, every accepted chunk is in one place: on its way to the sending loop, in a batch that
waits or is being sent, or in a batch that is finished.
-/

namespace LineDelivery.Pipeline

open scoped List

/-- Where a chunk can be. -/
inductive Place where
  | lineQueue
  | buffer
  /-- Cut, and still to be handed over. -/
  | outbox
  /-- In the batch that is being handed over. -/
  | handing
  | batchQueue
  | sending
  | retryQueue
  | backlog
  /-- In a batch that was delivered, dropped as failed or expired, or removed from the backlog. -/
  | finished
  deriving DecidableEq, Repr

namespace Place

def all : List Place :=
  [lineQueue, buffer, outbox, handing, batchQueue, sending, retryQueue, backlog, finished]

end Place

namespace State

variable {setup : Setup} {s : State}

def batchesIn (s : State) : Place → List Batch
  | .handing => s.buffering.handing?.toList.filterMap Parcel.batch?
  | .batchQueue => s.batchQueue.filterMap Parcel.batch?
  | .sending => s.sending.batch?.toList
  | .retryQueue => s.retryQueue
  | .backlog => s.backlog.items.map Backlog.Item.batch
  | .finished => finishedIn s.events
  | _ => []

/-- The chunks in a place, terminated. -/
def chunksIn (s : State) : Place → List Bytes
  | .lineQueue => s.lineQueue.map Line.terminate
  | .buffer => s.buffering.buffer.chunks
  | .outbox => s.buffering.outbox.flatMap Outgoing.chunks
  | place => (s.batchesIn place).flatMap Batch.chunks

theorem known_ledger (s : State) :
    s.ledger.known = (Place.all.flatMap s.batchesIn : List Batch) := by
  simp only [Ledger.known, Ledger.batches, Ledger.waiting, ledger, Place.all, List.flatMap_cons,
    List.flatMap_nil, batchesIn, List.filterMap_append, ← Multiset.coe_add, Multiset.coe_nil]
  abel

/-- The chunks of all places are those of the batches and those that are in no batch yet. -/
theorem chunksIn_perm (s : State) :
    (Place.all.flatMap s.batchesIn).flatMap Batch.chunks ++ s.ledger.upstream ~
      Place.all.flatMap s.chunksIn := by
  simp only [Place.all, List.flatMap_cons, List.flatMap_nil, batchesIn, chunksIn, ledger,
    List.flatMap_append, ← Multiset.coe_eq_coe, ← Multiset.coe_add, Multiset.coe_nil]
  abel

end State

/-- In an open writer every accepted chunk is somewhere, whole, and nothing else is. -/
theorem Reachable.accepted_perm {setup : Setup} {s : State} (calm : setup.NeverCrashes)
    (reachable : Reachable setup s) (opened : s.closing = false) :
    (acceptedIn s.events).map Line.terminate ~ Place.all.flatMap s.chunksIn := by
  have accounted := reachable.accounted
  have whole : s.ledger.torn = false := reachable.isTorn_eq_false calm opened
  have formed : (Place.all.flatMap s.batchesIn).map (renewed setup) ~ formedIn s.events := by
    have all := accounted.all whole
    rw [State.known_ledger] at all
    exact Multiset.coe_eq_coe.mp all
  have chunks : (formedIn s.events).flatMap Batch.chunks ~
      (Place.all.flatMap s.batchesIn).flatMap Batch.chunks := by
    have moved := (formed.flatMap_right Batch.chunks).symm
    rwa [List.flatMap_map] at moved
  calc (acceptedIn s.events).map Line.terminate
      = (formedIn s.events).flatMap Batch.chunks ++ s.ledger.upstream :=
        (accounted.ordered whole).symm
    _ ~ (Place.all.flatMap s.batchesIn).flatMap Batch.chunks ++ s.ledger.upstream :=
        chunks.append_right _
    _ ~ Place.all.flatMap s.chunksIn := s.chunksIn_perm

/-- Five lines are written at once, and the fifth has to stay in the line queue. -/
def State.crowded : State :=
  { start .hesitant with
    requests := [.line [65], .line [66], .line [67], .line [68], .line [69]] }.settle .hesitant

theorem accepted_perm_crowded :
    acceptedIn State.crowded.events = [[65], [66], [67], [68], [69]] ∧
      (acceptedIn State.crowded.events).map Line.terminate ~
        Place.all.flatMap State.crowded.chunksIn := by
  refine ⟨by decide +kernel, Reachable.accepted_perm Setup.hesitant_neverCrashes ?_ rfl⟩
  exact (Reachable.start rfl).runs (State.settle_ask_runs _ rfl)

end LineDelivery.Pipeline
