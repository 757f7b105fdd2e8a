import LineDelivery.Pipeline.State

/-!
# The client's side

Calls are made one after the other. A line waits while the line queue is full, a flush waits until
its barrier has passed the sending loop, and closing waits until both loops have ended. After
closing lines are refused and a flush does nothing, but a record that cannot be encoded is still
reported.
-/

namespace LineDelivery.Pipeline.State

def offerLine? (setup : Setup) (s : State) (chunk : Bytes) : Option State :=
  if chunk.isEmpty then some s
  else if s.closing then some (s.record .refused)
  else if !s.buffering.running then some (s.record .lost)
  else if s.lineQueue.length < setup.channelCapacity then
    some ({ s with lineQueue := s.lineQueue ++ [chunk] }.record (.accepted chunk))
  else none

def reportUnencodable (setup : Setup) (s : State) (error : DeliveryError) : State :=
  let counted := { s.stats with encodingFailures := s.stats.encodingFailures + 1 }
  let s := { s with stats := counted }.record (.unencodable error)
  if setup.verdict?.isSome then s.record (.reported error none 0) else s

/-- Releases all retries, then sends a barrier after everything that is on its way. -/
def beginFlush (s : State) : State :=
  if s.closing then s
  else
    let released := s.backlog.items.length
    let s := (s.withBacklog s.backlog.releaseAll).record (.flushing released)
    if s.buffering.running then { s with flushAsked := true, wait? := some .barrier } else s

def finishClose (s : State) (residual : Nat) : State :=
  { s with closed? := some (s.stats, residual) }.record (.stopped s.stats residual)

/-- The backlog closes first, and what it holds then is the residual. -/
def beginClose (s : State) : State :=
  let residual := s.backlog.size
  let s := { s with backlog := s.backlog.close, closing := true }
  if s.joined then s.finishClose residual else { s with wait? := some (.bothLoops residual) }

/-- A crashed sending loop leaves the backlog to the writer, and it goes away with it. -/
def giveUp (s : State) : State :=
  { s with closing := true, backlog := if s.sending = .crashed then s.backlog.close else s.backlog }

def serve? (setup : Setup) (s : State) : Request → Option State
  | .line chunk => s.offerLine? setup chunk
  | .unencodable error => some (s.reportUnencodable setup error)
  | .flush => some s.beginFlush
  | .close => some s.beginClose
  | .giveUp => some s.giveUp
  | .sleep duration =>
    some { s with wait? := some (.instant (Time.wakeUp (Time.deadline s.now duration))) }

def waitIsOver (s : State) : Wait → Bool
  | .barrier => !s.barrierHeld
  | .bothLoops _ => !s.buffering.running && s.sending.isOver
  | .instant time => time ≤ s.now

def endWait (s : State) : Wait → State
  | .bothLoops residual =>
    let s := { s with wait? := none, joined := true }
    (if s.sending = .crashed then s.record .crashNoticed else s).finishClose residual
  | _ => { s with wait? := none }

/-- The client's next step, if it has one. -/
def client? (setup : Setup) (s : State) : Option State :=
  match s.wait?, s.requests with
  | some wait, _ => if s.waitIsOver wait then some (s.endWait wait) else none
  | none, [] => none
  | none, request :: rest => { s with requests := rest }.serve? setup request

end LineDelivery.Pipeline.State
