import LineDelivery.Line

/-!
# Line buffer

Chunks are gathered here until they make a batch. A chunk that would push the held bytes past the
byte limit first makes what is held a batch of its own; reaching the line limit, or being past the
byte limit with a single oversized chunk, makes a batch after the chunk went in. So one chunk can
cut two batches. The line and byte counts are kept beside the chunks.
-/

namespace LineDelivery

structure LineBuffer where
  maxLines : Nat
  maxBytes : Nat
  /-- Terminated chunks, the newest first. -/
  newestFirst : List Bytes
  lineCount : Nat
  byteCount : Nat
  deriving DecidableEq, Repr

namespace LineBuffer

def empty (maxLines maxBytes : Nat) : LineBuffer :=
  { maxLines, maxBytes, newestFirst := [], lineCount := 0, byteCount := 0 }

/-- The chunks held, in the order in which they were added. -/
def chunks (buffer : LineBuffer) : List Bytes :=
  buffer.newestFirst.reverse

def isEmpty (buffer : LineBuffer) : Bool :=
  buffer.newestFirst.isEmpty

/-- The chunks of one batch, in order, with the counts kept for them. -/
structure Cut where
  chunks : List Bytes
  lineCount : Nat
  byteCount : Nat
  deriving DecidableEq, Repr

/-- Takes out all that is held as one batch; nothing is held afterwards. -/
def flush (buffer : LineBuffer) : Option Cut × LineBuffer :=
  if buffer.isEmpty then (none, buffer)
  else
    (some { chunks := buffer.chunks, lineCount := buffer.lineCount, byteCount := buffer.byteCount },
      empty buffer.maxLines buffer.maxBytes)

def flushIf (condition : Bool) (buffer : LineBuffer) : Option Cut × LineBuffer :=
  if condition then buffer.flush else (none, buffer)

/-- Puts a chunk behind the held ones, terminated, and counts it. -/
def push (buffer : LineBuffer) (chunk : Bytes) : LineBuffer :=
  { buffer with
    newestFirst := Line.terminate chunk :: buffer.newestFirst
    lineCount := buffer.lineCount + Line.count chunk
    byteCount := buffer.byteCount + (Line.terminate chunk).length }

def wouldOverflow (buffer : LineBuffer) (chunk : Bytes) : Bool :=
  buffer.maxBytes < buffer.byteCount + (Line.terminate chunk).length

def isFull (buffer : LineBuffer) : Bool :=
  buffer.maxLines ≤ buffer.lineCount || buffer.maxBytes < buffer.byteCount

/-- Adds a chunk and says which batches that cut, in order. An empty chunk changes nothing. -/
def add (buffer : LineBuffer) (chunk : Bytes) : List Cut × LineBuffer :=
  if chunk.isEmpty then ([], buffer)
  else
    let (before, room) := buffer.flushIf (buffer.wouldOverflow chunk)
    let filled := room.push chunk
    let (after, rest) := filled.flushIf filled.isFull
    (before.toList ++ after.toList, rest)

end LineBuffer

end LineDelivery
