import LineDelivery.Pipeline.Step

/-!
# Running a writer

At one instant a task goes on until it has no step, and then the first task that has one takes its
turn: the buffering loop, the alarm, the sending loop, the client. The steps left at an instant are
bounded by the work that the state holds, so this comes to an end.
-/

namespace LineDelivery.Pipeline

namespace State

/-- The steps that a batch before the sending loop can still cause: for each attempt it is taken up,
its call ends, and the alarm hands it back, which the last attempt spares. -/
def batchWork (batch : Batch) : Nat :=
  3 * batch.remaining + 2

/-- The steps that a cut can still cause: it becomes a batch, is handed over, and goes its way. -/
def cutWork (setup : Setup) : Nat :=
  3 * setup.maxRetries + 4

def parcelWork : Parcel → Nat
  | .batch batch => batchWork batch
  | .barrier => 1

def outgoingWork (setup : Setup) : Outgoing → Nat
  | .cut _ => cutWork setup
  | .barrier => 3

def requestWork (setup : Setup) : Request → Nat
  | .line _ => cutWork setup + 2
  | _ => 7

/-- The steps that the requests of the client, its wait and its lines can still cause. -/
def clientWork (setup : Setup) (s : State) : Nat :=
  (s.requests.map (requestWork setup)).foldr (· + ·) 0 + (if s.wait?.isSome then 1 else 0) +
    s.lineQueue.length * (cutWork setup + 1) + (if s.flushAsked then 5 else 0)

/-- The steps of the flush timer: it goes off if it is due, and it starts anew. -/
def timerWork (s : State) : Nat :=
  if s.buffering.restart then 1 else if s.buffering.flushAt ≤ s.now then 2 else 0

/-- The steps that the buffering loop and what it holds can still cause. A chunk may become a cut of
its own. -/
def bufferingWork (setup : Setup) (s : State) : Nat :=
  s.buffering.buffer.newestFirst.length * cutWork setup +
    (s.buffering.outbox.map (outgoingWork setup)).foldr (· + ·) 0 +
    (s.buffering.handing?.elim 0 fun parcel ↦ parcelWork parcel + 1) +
    (if s.buffering.running then 1 + s.timerWork else 0)

/-- The steps that the sending loop can still cause with what it is busy with. -/
def sendingWork (s : State) : Nat :=
  match s.sending with
  | .idle => 1
  | .calling call => batchWork call.batch
  | .stopped => 0
  | .crashed => 0

/-- A bound on the steps that all tasks together can take before time has to pass. -/
def work (setup : Setup) (s : State) : Nat :=
  s.clientWork setup + s.bufferingWork setup + s.sendingWork +
    (s.batchQueue.map parcelWork).foldr (· + ·) 0 + (s.retryQueue.map batchWork).foldr (· + ·) 0 +
    (s.backlog.items.map fun item ↦ batchWork item.batch + 1).foldr (· + ·) 0

/-- The task that has the next turn, and the state after its step; the task that had the last turn
goes on if it can. -/
def turn? (setup : Setup) (last : Task) (s : State) : Option (Task × State) :=
  (last :: Task.all).findSome? fun task ↦ (s.step? setup task).map (task, ·)

/-- Takes turns, at most so many, until no task has a step. -/
def takeTurns (setup : Setup) : Nat → Task → State → State
  | 0, _, s => s
  | turns + 1, last, s =>
    match s.turn? setup last with
    | none => s
    | some (task, t) => takeTurns setup turns task t

/-- Runs all tasks at the present instant until none has a step. -/
def settle (setup : Setup) (s : State) : State :=
  takeTurns setup (s.work setup) .client s

/-- Lets time pass, at most so often, until the client's call has returned. -/
def finishCall? (setup : Setup) : Nat → State → Option State
  | 0, s => if s.clientIdle then some s else none
  | pauses + 1, s =>
    if s.clientIdle then some s
    else
      match s.advance? with
      | none => none
      | some t => finishCall? setup pauses (t.settle setup)

/-- Makes a call and lets it return, if it does so within so many pauses. -/
def perform? (setup : Setup) (pauses : Nat) (s : State) (requests : List Request) : Option State :=
  finishCall? setup pauses ({ s with requests, closed? := none }.settle setup)

/-- What happened since an earlier state, in order. -/
def historySince (s earlier : State) : List (Nat × Event) :=
  (s.history.take (s.history.length - earlier.history.length)).reverse

end State

end LineDelivery.Pipeline
