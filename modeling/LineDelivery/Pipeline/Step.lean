import LineDelivery.Pipeline.Buffering
import LineDelivery.Pipeline.Client
import LineDelivery.Pipeline.Sending

/-!
# Steps of a writer

Four tasks share the state: the client, the two loops, and the alarm of the backlog. A step of
one of them takes no time; time passes only when none has a step, and then up to the next instant
that one of them waits for.
-/

namespace LineDelivery.Pipeline

inductive Task where
  | buffering
  | alarm
  | sending
  | client
  deriving DecidableEq, Repr

namespace Task

def all : List Task := [buffering, alarm, sending, client]

end Task

namespace State

/-- The alarm's step, if it is due. -/
def alarm? (s : State) : Option State :=
  if s.backlog.alarmDue s.now then some (s.withBacklog (s.backlog.fire s.now)) else none

/-- A task's next step, if it has one. -/
def step? (setup : Setup) (s : State) : Task → Option State
  | .buffering => s.buffering? setup
  | .alarm => s.alarm?
  | .sending => s.sending? setup
  | .client => s.client? setup

/-- The instants that tasks wait for. -/
def wakeUpTimes (s : State) : List Nat :=
  let client :=
    match s.wait? with
    | some (.instant time) => [time]
    | _ => []
  let buffering :=
    if s.buffering.running && s.buffering.handing?.isNone then [s.buffering.flushAt] else []
  let sending :=
    match s.sending with
    | .calling call => [call.endsAt]
    | _ => []
  client ++ buffering ++ sending ++ s.backlog.alarm.toList

/-- Lets time pass up to the first instant that a task waits for. -/
def advance? (s : State) : Option State :=
  s.wakeUpTimes.min?.map fun time ↦ { s with now := max s.now (Time.wakeUp time) }

end State

end LineDelivery.Pipeline
