import LineDelivery.Batch

/-!
# Backlog

Batches that failed wait here, sorted by the instant of their next attempt, in the order of arrival
where these are equal. A single alarm stands at the instant of the first one and is moved only when
the head changes. The lines held never exceed a limit: where a new batch does not fit, the batches
that expire first make room, until at most seven tenths of the lines are left and the new batch
fits. A closed backlog takes no more batches and has no alarm.
-/

namespace LineDelivery

namespace Backlog

/-- A batch that waits for its next attempt. -/
structure Item where
  batch : Batch
  lineCount : Nat
  retryTime : Nat
  deriving DecidableEq, Repr

namespace Item

/-- An item to be tried again after a delay, at the latest when the batch expires. -/
def schedule (now : Nat) (batch : Batch) (delay : Nat) : Item :=
  { batch
    lineCount := batch.lineCount
    retryTime := min (Time.deadline now delay) batch.expires }

def isDue (now : Nat) (item : Item) : Bool :=
  item.retryTime ≤ now

end Item

/-- The lines of several items together. -/
def totalLines (items : List Item) : Nat :=
  (items.map Item.lineCount).foldr (· + ·) 0

/-- What a backlog does that others may want to know of. -/
inductive Event where
  | removed (item : Item) (limit : Nat)
  | scheduled (item : Item) (delay : Nat)
  /-- Handed back for another attempt. -/
  | released (batch : Batch)
  /-- Handed back when nobody was left to make the attempt. -/
  | discarded (batch : Batch)
  deriving DecidableEq, Repr

/-- Making room: what is left, its lines, and what was removed so far. -/
structure Eviction where
  kept : List Item
  size : Nat
  /-- In the order of removal. -/
  removed : List Item
  /-- Some item stood at the head when it was removed. -/
  headRemoved : Bool
  deriving DecidableEq, Repr

namespace Eviction

def start (items : List Item) (size : Nat) : Eviction :=
  { kept := items, size, removed := [], headRemoved := false }

/-- Removes the item at a position. -/
def removeAt (eviction : Eviction) (position : Nat) : Eviction :=
  match eviction.kept[position]? with
  | none => eviction
  | some item =>
    { kept := eviction.kept.eraseIdx position
      size := eviction.size - item.lineCount
      removed := eviction.removed ++ [item]
      headRemoved := eviction.headRemoved || position == 0 }

/-- Where the item stands that expires first; of several, the one with the earliest retry. -/
def nextVictim? (eviction : Eviction) : Option Nat :=
  eviction.kept.minIdxOn? fun item ↦ item.batch.expires

/-- Removes items, at most as many as told, while more than the wanted lines are left. -/
def runTo (wanted : Nat) : Nat → Eviction → Eviction
  | 0, eviction => eviction
  | removals + 1, eviction =>
    if eviction.size ≤ wanted then eviction
    else
      match eviction.nextVictim? with
      | none => eviction
      | some position => runTo wanted removals (eviction.removeAt position)

end Eviction

end Backlog

structure Backlog where
  /-- The most lines that may be held. -/
  limit : Nat
  items : List Backlog.Item
  /-- The lines held. -/
  size : Nat
  closed : Bool
  /-- When the alarm goes off, if it is set. -/
  alarm : Option Nat
  deriving DecidableEq, Repr

namespace Backlog

def empty (limit : Nat) : Backlog :=
  { limit, items := [], size := 0, closed := false, alarm := none }

def isEmpty (backlog : Backlog) : Bool :=
  backlog.items.isEmpty

/-- The alarm as it has to stand for these items. -/
def alarmFor (items : List Item) : Option Nat :=
  items.head?.map Item.retryTime

/-- How many lines may stay when some must go for so many new ones. -/
def wantedSize (backlog : Backlog) (incoming : Nat) : Nat :=
  min (backlog.size * 7 / 10) (backlog.limit - incoming)

/-- Makes room for so many new lines, if they do not fit as it is. -/
def makeRoom (backlog : Backlog) (incoming : Nat) : Eviction :=
  let start := Eviction.start backlog.items backlog.size
  if backlog.size + incoming ≤ backlog.limit then start
  else start.runTo (backlog.wantedSize incoming) backlog.items.length

/-- Puts an item into the items that were kept, behind all with an equal or earlier retry. -/
def insert (backlog : Backlog) (room : Eviction) (item : Item) : Backlog :=
  let ahead := room.kept.takeWhile fun held ↦ held.retryTime ≤ item.retryTime
  let behind := room.kept.dropWhile fun held ↦ held.retryTime ≤ item.retryTime
  let items := ahead ++ item :: behind
  { backlog with
    items
    size := room.size + item.lineCount
    alarm := if room.headRemoved || ahead.isEmpty then alarmFor items else backlog.alarm }

/-- Takes in a batch for another attempt. An empty batch and a closed backlog change nothing, and a
batch that could never fit is removed at once. -/
def add (backlog : Backlog) (now : Nat) (batch : Batch) (delay : Nat) : Backlog × List Event :=
  let item := Item.schedule now batch delay
  if batch.lines.isEmpty || backlog.closed then (backlog, [])
  else if backlog.limit < item.lineCount then (backlog, [.removed item backlog.limit])
  else
    let room := backlog.makeRoom item.lineCount
    (backlog.insert room item,
      room.removed.map (.removed · backlog.limit) ++ [.scheduled item delay])

def alarmDue (backlog : Backlog) (now : Nat) : Bool :=
  backlog.alarm.any (· ≤ now)

/-- The alarm goes off: what is due is handed back, and the alarm moves to the next item. -/
def fire (backlog : Backlog) (now : Nat) : Backlog × List Batch :=
  let due := backlog.items.takeWhile (Item.isDue now)
  let rest := backlog.items.dropWhile (Item.isDue now)
  ({ backlog with items := rest, size := backlog.size - totalLines due, alarm := alarmFor rest },
    due.map Item.batch)

/-- Hands back all batches at once, also those of a closed backlog. -/
def releaseAll (backlog : Backlog) : Backlog × List Batch :=
  ({ backlog with items := [], size := 0, alarm := none }, backlog.items.map Item.batch)

/-- Takes no more batches and stops the alarm; what is held stays. -/
def close (backlog : Backlog) : Backlog :=
  { backlog with closed := true, alarm := none }

end Backlog

end LineDelivery
