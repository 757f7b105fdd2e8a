import LineDelivery.Backlog
import LineDelivery.Log.Entry

/-!
# What a backlog logs
-/

namespace LineDelivery.Backlog.Event

/-- Whole milliseconds as the log shows them: the low 64 bits. -/
def loggedMillis (duration : Nat) : Nat :=
  Time.toMillis duration % Nat.pow 2 64

/-- A batch that is handed back is not logged here. -/
def entry? : Event → Option Log.Entry
  | removed item limit => some
    { level := .warn
      message := "Retry buffer full, dropped lines"
      fields := [("lines", toString item.lineCount), ("limit", toString limit)] }
  | scheduled item delay => some
    { level := .debug
      message := "Scheduled batch for retry"
      fields :=
        [("lines", toString item.lineCount), ("retry_count", toString item.batch.remaining),
          ("delay_ms", toString (loggedMillis delay))] }
  | released _ => none
  | discarded _ => some { level := .debug, message := "Sending loop is gone, discarding retry" }

end LineDelivery.Backlog.Event
