import LineDelivery.Pipeline.State

/-!
# The sending loop

It minds, in this order, closing, a retry and a fresh batch, and makes one call of the transport at
a time. A batch whose time is over is dropped without a call. After a failed call the batch goes
into the backlog if that is wanted and it has retries left, and is dropped otherwise. A call can also
break the loop. The loop ends, besides, when the buffering loop has ended and the queues are empty.
-/

namespace LineDelivery.Pipeline.State

/-- The number of the attempt that a batch is up to, held at the largest word of 32 bits. -/
def attemptOf (setup : Setup) (batch : Batch) : Nat :=
  min (setup.maxRetries - batch.remaining + 1) (Nat.pow 2 32 - 1)

/-- The loop ends in order and closes the backlog. -/
def stopSending (s : State) : State :=
  { s with
    sending := .stopped, backlog := s.backlog.close, batchQueue := [], retryQueue := [] }.record
    .sendingStopped

/-- The loop breaks. The backlog knows nothing of it, but it goes away with the loop if nobody else
has it any more. -/
def crashSending (s : State) (batch : Batch) : State :=
  { s with
    sending := .crashed
    backlog := if s.closing then s.backlog.close else s.backlog
    batchQueue := []
    retryQueue := [] }.record (.crashed batch)

/-- Calls the failure handler, if there is one. -/
def report (setup : Setup) (s : State) (error : DeliveryError) (batch : Batch) (attempt : Nat) :
    State :=
  if setup.verdict?.isSome then
    { s with verdicts := s.verdicts + 1 }.record (.reported error (some batch) attempt)
  else s

def dropExpired (setup : Setup) (s : State) (batch : Batch) (attempt : Nat) : State :=
  let counted := { s.stats with batchesExpired := s.stats.batchesExpired + 1 }
  ({ s with stats := counted }.record (.expired batch attempt)).report setup .maxRetryTimeExceeded
    batch attempt

def call (setup : Setup) (s : State) (batch : Batch) (attempt : Nat) : State :=
  let endsAt := Time.wakeUp (Time.deadline s.now (setup.reply s.calls).delay)
  { s with
    calls := s.calls + 1
    sending := .calling { batch, attempt, asked := s.calls, endsAt } }.record
    (.called batch attempt)

/-- Takes up a batch that came out of one of the queues. -/
def takeUp (setup : Setup) (s : State) (batch : Batch) : State :=
  let attempt := attemptOf setup batch
  if batch.hasExpired s.now then s.dropExpired setup batch attempt else s.call setup batch attempt

def deliver (s : State) (batch : Batch) (attempt : Nat) : State :=
  let counted := { s.stats with batchesSent := s.stats.batchesSent + 1 }
  { s.record .backoffReset with stats := counted }.record (.delivered batch attempt)

def abandon (s : State) (batch : Batch) (attempt : Nat) (error : DeliveryError) : State :=
  let counted := { s.stats with batchesFailed := s.stats.batchesFailed + 1 }
  { s with stats := counted }.record (.abandoned batch attempt error)

/-- Notes an event of the backlog; lines that it removed are counted as skipped. -/
def noteBacklog (s : State) (event : Backlog.Event) : State :=
  let skipped :=
    match event with
    | .removed item _ => item.lineCount
    | _ => 0
  { s with stats := { s.stats with linesSkipped := s.stats.linesSkipped + skipped } }.record
    (.backlog event)

/-- Gives a batch, with one retry less, to the backlog. -/
def holdForRetry (s : State) (batch : Batch) (delay : Nat) : State :=
  let (backlog, events) :=
    s.backlog.add s.now { batch with remaining := batch.remaining - 1 } delay
  events.foldl noteBacklog { s with backlog }

def scheduleRetry (setup : Setup) (s : State) (batch : Batch) (attempt : Nat)
    (error : DeliveryError) : State :=
  let delay := setup.delay s.delays error attempt
  let counted := { s.stats with retriesScheduled := s.stats.retriesScheduled + 1 }
  let s := { s with delays := s.delays + 1 }.record (.delayed error attempt delay)
  let s := { s with stats := counted }.record (.retrying batch attempt error delay)
  s.holdForRetry batch delay

def handleFailure (setup : Setup) (s : State) (batch : Batch) (attempt : Nat)
    (error : DeliveryError) : State :=
  let wanted := setup.wantsRetry s.verdicts error
  let s := s.report setup error batch attempt
  if wanted && 0 < batch.remaining then s.scheduleRetry setup batch attempt error
  else s.abandon batch attempt error

def endCall (setup : Setup) (s : State) (call : Call) : State :=
  match setup.reply call.asked with
  | .crash _ => s.crashSending call.batch
  | .answer _ error? =>
    let s := { s with sending := .idle }.record (.answered call.batch call.attempt error?)
    match error? with
    | none => s.deliver call.batch call.attempt
    | some error => s.handleFailure setup call.batch call.attempt error

/-- What the loop does between two calls. -/
def nextParcel? (setup : Setup) (s : State) : Option State :=
  match s.retryQueue, s.batchQueue with
  | batch :: rest, _ => some ({ s with retryQueue := rest }.takeUp setup batch)
  | [], .batch batch :: rest => some ({ s with batchQueue := rest }.takeUp setup batch)
  | [], .barrier :: rest => some { s with batchQueue := rest }
  | [], [] => if s.buffering.running then none else some s.stopSending

/-- The loop's next step, if it has one. -/
def sending? (setup : Setup) (s : State) : Option State :=
  match s.sending with
  | .idle => if s.closing then some s.stopSending else s.nextParcel? setup
  | .calling call => if call.endsAt ≤ s.now then some (s.endCall setup call) else none
  | .stopped => none
  | .crashed => none

end LineDelivery.Pipeline.State
