import LineDelivery.Backlog

/-!
# A backlog in time

A backlog on its own, with a clock, the commands it is given and the trace of what it does. The
clock moves only while a command sleeps, from one alarm to the next, and every alarm due by then
has gone off when the command is over.
-/

namespace LineDelivery

structure Timeline where
  now : Nat
  backlog : Backlog
  /-- Somebody takes the batches that are handed back. -/
  listening : Bool
  /-- What happened and when, the newest first. -/
  trace : List (Nat × Backlog.Event)
  deriving DecidableEq, Repr

namespace Timeline

inductive Command where
  | add (batch : Batch) (delay : Nat)
  | releaseAll
  | close
  | sleep (duration : Nat)
  /-- Nobody takes batches any more. -/
  | stopListening
  /-- The backlog goes away with what it holds. -/
  | abandon
  deriving DecidableEq, Repr

def start (limit : Nat) : Timeline :=
  { now := 0, backlog := .empty limit, listening := true, trace := [] }

def record (timeline : Timeline) (event : Backlog.Event) : Timeline :=
  { timeline with trace := (timeline.now, event) :: timeline.trace }

def handBack (timeline : Timeline) (batch : Batch) : Timeline :=
  timeline.record (if timeline.listening then .released batch else .discarded batch)

/-- Hands back the batches that an operation of the backlog gave out. -/
def settleWith (timeline : Timeline) (outcome : Backlog × List Batch) : Timeline :=
  outcome.2.foldl handBack { timeline with backlog := outcome.1 }

/-- Lets the alarm go off if it is due. -/
def settle (timeline : Timeline) : Timeline :=
  if timeline.backlog.alarmDue timeline.now then
    timeline.settleWith (timeline.backlog.fire timeline.now)
  else timeline

/-- Moves the clock to an instant, with at most so many alarms on the way. -/
def sleepUntil (target : Nat) : Nat → Timeline → Timeline
  | 0, timeline => { timeline with now := target }
  | alarms + 1, timeline =>
    match timeline.backlog.alarm with
    | none => { timeline with now := target }
    | some alarm =>
      if Time.wakeUp alarm ≤ target then
        let woken := { timeline with now := max timeline.now (Time.wakeUp alarm) }
        sleepUntil target alarms woken.settle
      else { timeline with now := target }

def perform (timeline : Timeline) : Command → Timeline
  | .add batch delay =>
    let (backlog, events) := timeline.backlog.add timeline.now batch delay
    events.foldl record { timeline with backlog }
  | .releaseAll => timeline.settleWith timeline.backlog.releaseAll
  | .close => { timeline with backlog := timeline.backlog.close }
  | .sleep duration =>
    let target := Time.wakeUp (Time.deadline timeline.now duration)
    timeline.sleepUntil target timeline.backlog.items.length
  | .stopListening => { timeline with listening := false }
  | .abandon => { timeline with backlog := (Backlog.empty timeline.backlog.limit).close }

/-- Performs a command and whatever falls due while it lasts. -/
def step (timeline : Timeline) (command : Command) : Timeline :=
  (timeline.perform command).settle

/-- The number that a command answers with: how many batches were released at once, or how many
lines a closed backlog still holds. -/
def answer (timeline : Timeline) : Command → Option Nat
  | .releaseAll => some timeline.backlog.items.length
  | .close => some timeline.backlog.size
  | _ => none

end Timeline

end LineDelivery
