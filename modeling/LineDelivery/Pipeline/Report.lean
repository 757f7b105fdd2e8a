import LineDelivery.Backlog.Report
import LineDelivery.LineBuffer.Report
import LineDelivery.Pipeline.Event
import LineDelivery.Text.Lossy
import LineDelivery.Text.Truncate

/-!
# What a writer logs

The log entries of the events of a writer.
-/

namespace LineDelivery.Pipeline.Event

/-- The most bytes of a dropped batch that the log shows. -/
def previewBytes : Nat := 128

def preview (batch : Batch) : String :=
  Text.truncate (Text.decodeLossy batch.lines) previewBytes

def stoppedFields (stats : Stats) : List (String × String) :=
  [("sent", toString stats.batchesSent), ("failed", toString stats.batchesFailed),
    ("expired", toString stats.batchesExpired), ("retries", toString stats.retriesScheduled)]

def entries : Event → List Log.Entry
  | started flushIntervalMillis maxRetries =>
    [{ level := .info
       message := "Points writer started"
       fields :=
        [("flush_interval_ms", toString flushIntervalMillis),
          ("max_retries", toString maxRetries)] }]
  | refused => [{ level := .warn, message := "Write called on a closed writer, discarding line" }]
  | lost => [{ level := .debug, message := "Buffering loop has stopped, discarding line" }]
  | unencodable error =>
    [{ level := .warn
       message := "Failed to encode record, skipping it"
       fields := [("error", error.text)] }]
  | flushing released =>
    [{ level := .debug, message := "Flushing writer", fields := [("released", toString released)] }]
  | cut taken => [taken.entry]
  | bufferingStopped discardedLines =>
    let discarded : Log.Entry :=
      { level := .debug
        message := "Discarding buffered lines on shutdown"
        fields := [("lines", toString discardedLines)] }
    (if discardedLines = 0 then [] else [discarded]) ++
      [{ level := .debug, message := "Buffering loop stopped" }]
  | delivered batch attempt =>
    [{ level := .debug
       message := "Batch written"
       fields := [("bytes", toString batch.lines.length), ("attempt", toString attempt)] }]
  | retrying _ attempt error delay =>
    [{ level := .warn
       message := "Write failed, scheduling retry"
       fields :=
        [("error", error.text), ("attempt", toString attempt),
          ("delay_ms", toString (Backlog.Event.loggedMillis delay))] }]
  | abandoned batch attempt error =>
    [{ level := .error
       message := "Write failed permanently, dropping batch"
       fields :=
        [("error", error.text), ("attempt", toString attempt), ("lines", toString batch.lineCount),
          ("preview", preview batch)] }]
  | expired batch attempt =>
    [{ level := .warn
       message := "Dropping batch: " ++ DeliveryError.maxRetryTimeExceeded.text
       fields := [("lines", toString batch.lineCount), ("attempt", toString attempt)] }]
  | backlog event => event.entry?.toList
  | sendingStopped => [{ level := .debug, message := "Sending loop stopped" }]
  | crashNoticed =>
    [{ level := .error
       message := "Sending loop terminated abnormally"
       fields := [("error", "panicked")] }]
  | stopped stats residual =>
    let left : Log.Entry :=
      { level := .warn
        message := "Closing writer with lines awaiting retry"
        fields := [("lines", toString residual)] }
    (if residual = 0 then [] else [left]) ++
      [{ level := .info, message := "Points writer stopped", fields := stoppedFields stats }]
  | accepted _ => []
  | gathered _ => []
  | formed _ => []
  | called _ _ => []
  | answered _ _ _ => []
  | backoffReset => []
  | reported _ _ _ => []
  | delayed _ _ _ => []
  | crashed _ => []

end LineDelivery.Pipeline.Event
