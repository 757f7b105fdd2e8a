import LineDelivery.Pipeline.State

/-!
# The buffering loop

It minds, in this order, closing, a line, the flush timer and a flush. What these cut goes out one
parcel at a time, each waiting while the batch queue is full; a batch is formed, and its time starts
to run, when its turn comes. The flush timer starts anew after it has gone off and after a flush,
not when a batch fills up.
-/

namespace LineDelivery.Pipeline.State

/-- The loop ends, and what it held or had still to take is lost. -/
def stopBuffering (s : State) : State :=
  let lines := s.buffering.buffer.lineCount
  let emptied := LineBuffer.empty s.buffering.buffer.maxLines s.buffering.buffer.maxBytes
  let ended : Buffering :=
    { s.buffering with
      running := false, buffer := emptied, outbox := [], handing? := none, restart := false }
  { s with buffering := ended, lineQueue := [], flushAsked := false }.record
    (.bufferingStopped lines)

/-- Puts a parcel into the batch queue. -/
def enqueue (s : State) (parcel : Parcel) : State :=
  { s with
    buffering := { s.buffering with handing? := none }
    batchQueue := s.batchQueue ++ [parcel] }

def hand? (setup : Setup) (s : State) (parcel : Parcel) : Option State :=
  if s.sending.isOver then some s.stopBuffering
  else if s.batchQueue.length < setup.channelCapacity then some (s.enqueue parcel)
  else none

/-- Begins to hand over the first item of the outbox; a cut becomes a batch. -/
def beginHandOver (setup : Setup) (s : State) (next : Outgoing) (rest : List Outgoing) : State :=
  match next with
  | .barrier =>
    { s with buffering := { s.buffering with outbox := rest, handing? := some .barrier } }
  | .cut cut =>
    let serial := s.buffering.formed
    let batch := Batch.form serial cut.chunks setup.maxRetries s.now setup.maxRetryTime
    { s with
      buffering :=
        { s.buffering with
          outbox := rest, handing? := some (.batch batch), formed := serial + 1 } }.record
      (.formed batch)

def restartTimer (setup : Setup) (s : State) : State :=
  { s with
    buffering := { s.buffering with restart := false, flushAt := s.now + setup.flushInterval } }

/-- Puts what was cut into the empty outbox. -/
def send (s : State) (cuts : List LineBuffer.Cut) (buffer : LineBuffer) : State :=
  cuts.foldl (fun s cut ↦ s.record (.cut cut))
    { s with buffering := { s.buffering with buffer, outbox := cuts.map .cut } }

def gather (s : State) (chunk : Bytes) (rest : List Bytes) : State :=
  let (cuts, buffer) := s.buffering.buffer.add chunk
  ({ s with lineQueue := rest }.record (.gathered chunk)).send cuts buffer

/-- Cuts all that is buffered, after which the flush timer starts anew. -/
def flushBuffer (s : State) : State :=
  let (cut?, buffer) := s.buffering.buffer.flush
  { s with buffering := { s.buffering with restart := true } }.send cut?.toList buffer

/-- Cuts all that is buffered and sends the barrier behind it. -/
def flushOnRequest (s : State) : State :=
  let s := { s with flushAsked := false }.flushBuffer
  { s with buffering := { s.buffering with outbox := s.buffering.outbox ++ [.barrier] } }

/-- What the loop does when it has nothing to hand over. -/
def attend? (s : State) : Option State :=
  match s.lineQueue with
  | chunk :: rest => some (s.gather chunk rest)
  | [] =>
    if s.buffering.flushAt ≤ s.now then some s.flushBuffer
    else if s.flushAsked then some s.flushOnRequest
    else none

/-- The loop's next step, if it has one. -/
def buffering? (setup : Setup) (s : State) : Option State :=
  if !s.buffering.running then none
  else if s.closing then some s.stopBuffering
  else
    match s.buffering.handing?, s.buffering.outbox with
    | some parcel, _ => s.hand? setup parcel
    | none, next :: rest => some (s.beginHandOver setup next rest)
    | none, [] => if s.buffering.restart then some (s.restartTimer setup) else s.attend?

end LineDelivery.Pipeline.State
