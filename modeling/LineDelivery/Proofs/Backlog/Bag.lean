import LineDelivery.Backlog.Timeline
import Mathlib.Data.List.Induction
import Mathlib.Data.List.Nodup
import Mathlib.Data.Prod.Lex
import Mathlib.Logic.Function.Iterate
import Mathlib.Order.MinMax

/-!
# A plain bag

What a backlog is for, without alarm and without order: a bag holds entries, and at every whole
millisecond it hands back all that are due, those with the earliest retry first and equal ones in
the order of their arrival. Where a new entry does not fit, the entries that expire first go.

A bag tells of each entry when it comes, when it leaves, and why.
-/

namespace LineDelivery

namespace Timeline

/-- What can happen next. -/
inductive Turn where
  | command (command : Command)
  /-- The alarm goes off if it is due. -/
  | alarm
  /-- Time passes, at most so much, and not beyond the instant at which the alarm goes off, which it
  has still to do then. -/
  | await (duration : Nat)
  deriving DecidableEq, Repr

/-- The backlog is neither closed nor gone after this, and somebody takes its batches. -/
def Turn.KeepsOpen : Turn → Prop
  | command (.add _ _) | command .releaseAll | command (.sleep _) | alarm | await _ => True
  | command .close | command .stopListening | command .abandon => False

instance (turn : Turn) : Decidable turn.KeepsOpen := by
  unfold Turn.KeepsOpen
  split <;> infer_instance

/-- The instant that a timeline comes to while it awaits its alarm. -/
def awaited (timeline : Timeline) (duration : Nat) : Nat :=
  let target := Time.wakeUp (Time.deadline timeline.now duration)
  match timeline.backlog.alarm with
  | none => target
  | some alarm => min target (max timeline.now (Time.wakeUp alarm))

def take (timeline : Timeline) : Turn → Timeline
  | .command command => timeline.perform command
  | .alarm => timeline.settle
  | .await duration => { timeline with now := timeline.awaited duration }

/-- A timeline from its start through some turns. -/
def run (limit : Nat) (turns : List Turn) : Timeline :=
  turns.foldl take (start limit)

end Timeline

/-- An item in a bag. -/
structure Bag.Entry where
  item : Backlog.Item
  /-- How many entries came before. -/
  arrival : Nat
  since : Nat
  deriving DecidableEq, Repr

namespace Bag

namespace Entry

/-- Entries are handed back by their retry, and equal ones by their arrival. -/
def releaseKey (entry : Entry) : Nat ×ₗ Nat :=
  toLex (entry.item.retryTime, entry.arrival)

/-- Room is made by expiry, and among equals as entries are handed back. -/
def evictionKey (entry : Entry) : Nat ×ₗ Nat ×ₗ Nat :=
  toLex (entry.item.batch.expires, entry.releaseKey)

/-- When an entry is handed back: at the first whole millisecond from its retry on, or when it comes
if that is later. -/
def leavesAt (entry : Entry) : Nat :=
  max entry.since (Time.wakeUp entry.item.retryTime)

end Entry

inductive Event where
  /-- Removed at once, since it could never fit. -/
  | refused (item : Backlog.Item)
  | arrived (entry : Entry) (delay : Nat)
  /-- Removed to make room. -/
  | evicted (entry : Entry)
  /-- Handed back on demand. -/
  | flushed (entry : Entry)
  /-- Handed back because its time has come. -/
  | due (entry : Entry)
  deriving DecidableEq, Repr

namespace Event

/-- What others see of it. -/
def shown (limit : Nat) : Event → Backlog.Event
  | refused item => .removed item limit
  | arrived entry delay => .scheduled entry.item delay
  | evicted entry => .removed entry.item limit
  | flushed entry => .released entry.item.batch
  | due entry => .released entry.item.batch

def arrived? : Event → Option Entry
  | arrived entry _ => some entry
  | _ => none

/-- The entry that is in the bag no more. -/
def left? : Event → Option Entry
  | evicted entry | flushed entry | due entry => some entry
  | _ => none

def handedBack? : Event → Option Entry
  | flushed entry | due entry => some entry
  | _ => none

end Event

/-- Entries in the order of a key. -/
def inOrderOf {key : Type} [LinearOrder key] (keyOf : Entry → key) (entries : List Entry) :
    List Entry :=
  entries.mergeSort fun first second ↦ keyOf first ≤ keyOf second

def totalLines (entries : List Entry) : Nat :=
  Backlog.totalLines (entries.map Entry.item)

/-- Takes entries from the front until at most so many lines are left. -/
def dropTo (wanted : Nat) : List Entry → List Entry × List Entry
  | [] => ([], [])
  | entry :: rest =>
    if totalLines (entry :: rest) ≤ wanted then ([], entry :: rest)
    else
      let (dropped, kept) := dropTo wanted rest
      (entry :: dropped, kept)

end Bag

structure Bag where
  now : Nat
  limit : Nat
  arrivals : Nat
  /-- In no order that matters. -/
  entries : List Bag.Entry
  /-- The newest first. -/
  trace : List (Nat × Bag.Event)
  deriving DecidableEq, Repr

namespace Bag

def start (limit : Nat) : Bag :=
  { now := 0, limit, arrivals := 0, entries := [], trace := [] }

/-- Notes what happens now, given in order. -/
def note (bag : Bag) (events : List Event) : Bag :=
  { bag with trace := events.reverse.map (bag.now, ·) ++ bag.trace }

/-- What others see of what happened. -/
def shownTrace (bag : Bag) : List (Nat × Backlog.Event) :=
  bag.trace.map fun noted ↦ (noted.1, noted.2.shown bag.limit)

/-- The entries that must go for so many new lines, and those that stay. -/
def makeRoom (bag : Bag) (incoming : Nat) : List Entry × List Entry :=
  let size := totalLines bag.entries
  if size + incoming ≤ bag.limit then ([], bag.entries)
  else dropTo (min (size * 7 / 10) (bag.limit - incoming)) (inOrderOf Entry.evictionKey bag.entries)

def add (bag : Bag) (batch : Batch) (delay : Nat) : Bag :=
  let item := Backlog.Item.schedule bag.now batch delay
  if batch.lines.isEmpty then bag
  else if bag.limit < item.lineCount then bag.note [.refused item]
  else
    let entry : Entry := { item, arrival := bag.arrivals, since := bag.now }
    let (evicted, kept) := bag.makeRoom item.lineCount
    { bag with arrivals := bag.arrivals + 1, entries := entry :: kept }.note
      (evicted.map Event.evicted ++ [Event.arrived entry delay])

def releaseAll (bag : Bag) : Bag :=
  { bag with entries := [] }.note ((inOrderOf Entry.releaseKey bag.entries).map .flushed)

def releaseDue (bag : Bag) : Bag :=
  let due := bag.entries.filter (·.item.isDue bag.now)
  { bag with entries := bag.entries.filter (!·.item.isDue bag.now) }.note
    ((inOrderOf Entry.releaseKey due).map .due)

/-- A millisecond passes. -/
def tick (bag : Bag) : Bag :=
  { bag with now := bag.now + Time.nanosPerMilli }.releaseDue

/-- Time passes, millisecond by millisecond. -/
def sleep (bag : Bag) (duration : Nat) : Bag :=
  let target := Time.wakeUp (Time.deadline bag.now duration)
  tick^[(target - bag.now) / Time.nanosPerMilli] bag.releaseDue

/-- The instant, at most so much later, at which the first entry leaves. -/
def awaited (bag : Bag) (duration : Nat) : Nat :=
  (bag.entries.map Entry.leavesAt).foldr min (Time.wakeUp (Time.deadline bag.now duration))

def take (bag : Bag) : Timeline.Turn → Bag
  | .command (.add batch delay) => bag.add batch delay
  | .command .releaseAll => bag.releaseAll
  | .command (.sleep duration) => bag.sleep duration
  | .command _ => bag
  | .alarm => bag.releaseDue
  | .await duration => { bag with now := bag.awaited duration }

def run (limit : Nat) (turns : List Timeline.Turn) : Bag :=
  turns.foldl take (start limit)

theorem shownTrace_note (bag : Bag) (events : List Event) : (bag.note events).shownTrace =
    (events.map (Event.shown bag.limit)).reverse.map (bag.now, ·) ++ bag.shownTrace := by
  simp [shownTrace, note, Function.comp_def]

/-! ## Orders of entries -/

section

variable {key : Type} [LinearOrder key] {keyOf : Entry → key} {entries sorted : List Entry}

theorem inOrderOf_perm (keyOf : Entry → key) (entries : List Entry) :
    (inOrderOf keyOf entries).Perm entries :=
  List.mergeSort_perm _ _

@[simp]
theorem mem_inOrderOf {entry : Entry} : entry ∈ inOrderOf keyOf entries ↔ entry ∈ entries :=
  (inOrderOf_perm keyOf entries).mem_iff

theorem pairwise_inOrderOf (keyOf : Entry → key) (entries : List Entry) :
    (inOrderOf keyOf entries).Pairwise fun first second ↦ keyOf first ≤ keyOf second := by
  let le := fun first second ↦ decide (keyOf first ≤ keyOf second)
  have sorted : (entries.mergeSort le).Pairwise fun first second ↦ le first second :=
    List.pairwise_mergeSort (by simpa [le] using fun _ _ _ ↦ le_trans)
      (by simpa [le] using fun _ _ ↦ le_total _ _) entries
  simpa [le, inOrderOf] using sorted

/-- Strictly ordered entries are ordered in no other way. -/
theorem inOrderOf_eq (perm : sorted.Perm entries)
    (strict : sorted.Pairwise fun first second ↦ keyOf first < keyOf second) :
    inOrderOf keyOf entries = sorted := by
  have distinct : (sorted.map keyOf).Nodup :=
    List.pairwise_map.mpr (strict.imp fun less ↦ less.ne)
  refine List.Perm.eq_of_pairwise ?_ (pairwise_inOrderOf keyOf entries) (strict.imp le_of_lt)
    ((inOrderOf_perm keyOf entries).trans perm.symm)
  intro first second isFirst isSecond le ge
  exact List.inj_on_of_nodup_map distinct (perm.mem_iff.mpr (mem_inOrderOf.mp isFirst)) isSecond
    (le_antisymm le ge)

/-- No two entries have the same key. -/
theorem inOrderOf_strict (distinct : (entries.map keyOf).Nodup) :
    (inOrderOf keyOf entries).Pairwise fun first second ↦ keyOf first < keyOf second := by
  have apart : (inOrderOf keyOf entries).Pairwise fun first second ↦ keyOf first ≠ keyOf second :=
    List.pairwise_map.mp (((inOrderOf_perm keyOf entries).map keyOf).nodup_iff.mpr distinct)
  exact (pairwise_inOrderOf keyOf entries).imp₂ (fun _ _ le ne ↦ lt_of_le_of_ne le ne) apart

/-- The order does not depend on how the entries stood before. -/
theorem inOrderOf_congr {others : List Entry} (perm : entries.Perm others)
    (distinct : (others.map keyOf).Nodup) : inOrderOf keyOf entries = inOrderOf keyOf others :=
  inOrderOf_eq ((inOrderOf_perm keyOf others).trans perm.symm) (inOrderOf_strict distinct)

end

theorem dropTo_append (wanted : Nat) (entries : List Entry) :
    (dropTo wanted entries).1 ++ (dropTo wanted entries).2 = entries := by
  induction entries with
  | nil => rfl
  | cons entry rest ih =>
    unfold dropTo
    split
    · rfl
    · exact congrArg (entry :: ·) ih

theorem makeRoom_perm (bag : Bag) (incoming : Nat) :
    ((bag.makeRoom incoming).1 ++ (bag.makeRoom incoming).2).Perm bag.entries := by
  unfold makeRoom
  dsimp only
  split
  · exact .refl _
  · rw [dropTo_append]
    exact inOrderOf_perm _ _

/-! ## Time -/

@[simp]
theorem now_releaseDue (bag : Bag) : bag.releaseDue.now = bag.now := rfl

/-- No entry is due. -/
def Quiet (bag : Bag) : Prop :=
  ∀ entry ∈ bag.entries, bag.now < entry.item.retryTime

theorem quiet_releaseDue (bag : Bag) : bag.releaseDue.Quiet := by
  intro entry left
  have late := (List.mem_filter.mp left).2
  simpa [Backlog.Item.isDue] using late

theorem releaseDue_of_quiet {bag : Bag} (quiet : bag.Quiet) : bag.releaseDue = bag := by
  have noneDue : bag.entries.filter (·.item.isDue bag.now) = [] := by
    simpa [Quiet, Backlog.Item.isDue, List.filter_eq_nil_iff] using quiet
  have allLeft : bag.entries.filter (!·.item.isDue bag.now) = bag.entries := by
    simpa [Quiet, Backlog.Item.isDue, List.filter_eq_self] using quiet
  simp [releaseDue, noneDue, allLeft, note, inOrderOf]

/-- As long as no entry falls due, nothing but the clock moves. -/
theorem iterate_tick_of_quiet {bag : Bag} {ticks : Nat}
    (quiet : ∀ entry ∈ bag.entries, bag.now + ticks * Time.nanosPerMilli < entry.item.retryTime) :
    tick^[ticks] bag = { bag with now := bag.now + ticks * Time.nanosPerMilli } := by
  induction ticks with
  | zero => simp
  | succ ticks ih =>
    rw [Nat.add_mul, Nat.one_mul, ← Nat.add_assoc] at quiet ⊢
    have earlier := ih fun entry held ↦ (Nat.le_add_right _ _).trans_lt (quiet entry held)
    rw [Function.iterate_succ_apply', earlier]
    exact releaseDue_of_quiet quiet

/-- Until some instant, nothing is handed back that is not due before. -/
theorem iterate_tick_releaseDue {bag : Bag} {target : Nat} (clock : Time.nanosPerMilli ∣ bag.now)
    (whole : Time.nanosPerMilli ∣ target) (later : bag.now ≤ target)
    (early : ∀ entry ∈ bag.entries, target ≤ max bag.now (Time.wakeUp entry.item.retryTime)) :
    tick^[(target - bag.now) / Time.nanosPerMilli] bag.releaseDue =
      { bag with now := target }.releaseDue := by
  rcases later.eq_or_lt with rfl | before
  · simp
  · obtain ⟨ticks, rfl⟩ : ∃ ticks, target =
        bag.now + ticks * Time.nanosPerMilli + Time.nanosPerMilli := by
      refine ⟨(target - bag.now) / Time.nanosPerMilli - 1, ?_⟩
      unfold Time.nanosPerMilli at *
      omega
    have quiet : ∀ entry ∈ bag.entries,
        bag.now + ticks * Time.nanosPerMilli < entry.item.retryTime := by
      intro entry held
      by_contra isDue
      have passed := Time.wakeUp_le ((Nat.dvd_add_right clock).mpr (Nat.dvd_mul_left _ ticks))
        (Nat.le_of_not_lt isDue)
      have least := early entry held
      unfold Time.nanosPerMilli at *
      omega
    have count : (bag.now + ticks * Time.nanosPerMilli + Time.nanosPerMilli - bag.now) /
        Time.nanosPerMilli = ticks + 1 := by
      unfold Time.nanosPerMilli
      omega
    rw [count, Function.iterate_succ_apply', releaseDue_of_quiet, iterate_tick_of_quiet quiet, tick]
    exact fun entry held ↦ (Nat.le_add_right _ _).trans_lt (quiet entry held)

theorem le_foldr_min_iff {instant target : Nat} {instants : List Nat} :
    instant ≤ instants.foldr min target ↔
      instant ≤ target ∧ ∀ other ∈ instants, instant ≤ other := by
  induction instants with
  | nil => simp
  | cons other rest ih => simp [ih, and_left_comm]

theorem dvd_foldr_min {divisor target : Nat} {instants : List Nat} (last : divisor ∣ target)
    (all : ∀ instant ∈ instants, divisor ∣ instant) : divisor ∣ instants.foldr min target := by
  induction instants with
  | nil => exact last
  | cons instant rest ih =>
    obtain ⟨first, others⟩ := List.forall_mem_cons.mp all
    rw [List.foldr_cons]
    rcases min_choice instant (rest.foldr min target) with same | same
    · exact same.symm ▸ first
    · exact same.symm ▸ ih others

theorem le_awaited_iff {bag : Bag} {duration instant : Nat} : instant ≤ bag.awaited duration ↔
    instant ≤ Time.wakeUp (Time.deadline bag.now duration) ∧
      ∀ entry ∈ bag.entries, instant ≤ entry.leavesAt := by
  rw [awaited, le_foldr_min_iff, List.forall_mem_map]

/-! ## What a bag guarantees -/

/-- All entries that ever came, the newest first. -/
def arrivedIn (trace : List (Nat × Event)) : List Entry :=
  trace.filterMap fun noted ↦ noted.2.arrived?

/-- All entries that are in the bag no more. -/
def leftIn (trace : List (Nat × Event)) : List Entry :=
  trace.filterMap fun noted ↦ noted.2.left?

structure Fair (bag : Bag) : Prop where
  clock : Time.nanosPerMilli ∣ bag.now
  /-- Every entry has a retry not later than its batch expires. -/
  scheduled : ∀ now entry delay, (now, .arrived entry delay) ∈ bag.trace → entry.since = now ∧
    entry.item.retryTime = min (Time.deadline now delay) entry.item.batch.expires
  numbered : (arrivedIn bag.trace).map Entry.arrival = (List.range bag.arrivals).reverse
  /-- Every entry that came is in the bag or has left it, once. -/
  accounted : (bag.entries ++ leftIn bag.trace).Perm (arrivedIn bag.trace)
  /-- No entry stays longer than it should. -/
  held : ∀ entry ∈ bag.entries, entry.since ≤ bag.now ∧ bag.now ≤ entry.leavesAt
  /-- What falls due is handed back when its time has come, neither earlier nor later. -/
  punctual : ∀ now entry, (now, .due entry) ∈ bag.trace → now = entry.leavesAt
  /-- An entry is handed back before all others that are in the bag and have a later retry, or came
  later for an equal one. -/
  inOrder : ∀ now event older entry, (now, event) :: older <:+ bag.trace →
    event.handedBack? = some entry → ∀ other ∈ arrivedIn older,
      other ∉ leftIn ((now, event) :: older) → entry.releaseKey < other.releaseKey

namespace Fair

variable {bag : Bag}

theorem start (limit : Nat) : Fair (.start limit) where
  clock := Nat.dvd_zero _
  scheduled := by simp [Bag.start]
  numbered := rfl
  accounted := .nil
  held := by simp [Bag.start]
  punctual := by simp [Bag.start]
  inOrder := by simp [Bag.start]

theorem arrival_lt (fair : bag.Fair) {entry : Entry} (held : entry ∈ bag.entries) :
    entry.arrival < bag.arrivals := by
  have came := fair.accounted.mem_iff.mp (List.mem_append_left _ held)
  have listed := List.mem_map_of_mem (f := Entry.arrival) came
  rw [fair.numbered, List.mem_reverse] at listed
  exact List.mem_range.mp listed

theorem nodup_arrival (fair : bag.Fair) : (bag.entries.map Entry.arrival).Nodup := by
  have all : ((bag.entries ++ leftIn bag.trace).map Entry.arrival).Nodup := by
    rw [(fair.accounted.map Entry.arrival).nodup_iff, fair.numbered, List.nodup_reverse]
    exact List.nodup_range
  rw [List.map_append] at all
  exact all.of_append_left

theorem nodup_releaseKey (fair : bag.Fair) : (bag.entries.map Entry.releaseKey).Nodup := by
  refine List.Nodup.of_map (fun key ↦ (ofLex key).2) ?_
  simpa [Function.comp_def, Entry.releaseKey] using fair.nodup_arrival

theorem nodup_evictionKey (fair : bag.Fair) : (bag.entries.map Entry.evictionKey).Nodup := by
  refine List.Nodup.of_map (fun key ↦ (ofLex key).2) ?_
  simpa [Function.comp_def, Entry.evictionKey] using fair.nodup_releaseKey

/-- One entry leaves, and if it is handed back, it is the first in order. -/
theorem leave (fair : bag.Fair) {entry : Entry} {rest : List Entry} {event : Event}
    (perm : bag.entries.Perm (entry :: rest)) (left : event.left? = some entry)
    (first : event.handedBack? = some entry → ∀ other ∈ rest, entry.releaseKey < other.releaseKey)
    (onTime : event = .due entry → bag.now = entry.leavesAt) :
    Fair { bag with entries := rest, trace := (bag.now, event) :: bag.trace } := by
  have same : arrivedIn ((bag.now, event) :: bag.trace) = arrivedIn bag.trace := by
    cases event <;> simp_all [arrivedIn, Event.arrived?, Event.left?]
  have gone : leftIn ((bag.now, event) :: bag.trace) = entry :: leftIn bag.trace := by
    simp [leftIn, left]
  constructor
  case clock => exact fair.clock
  case scheduled =>
    intro now other delay there
    rcases List.mem_cons.mp there with new | old
    · cases event <;> simp_all [Event.left?]
    · exact fair.scheduled now other delay old
  case numbered => exact same ▸ fair.numbered
  case accounted =>
    rw [same, gone]
    exact (List.perm_middle.trans (perm.symm.append_right _)).trans fair.accounted
  case held => exact fun other isHeld ↦ fair.held other (perm.mem_iff.mpr (.tail _ isHeld))
  case punctual =>
    intro now other there
    rcases List.mem_cons.mp there with new | old
    · obtain ⟨rfl, rfl⟩ := Prod.mk.inj new
      obtain rfl : other = entry := Option.some.inj left
      exact onTime rfl
    · exact fair.punctual now other old
  case inOrder =>
    intro now latest older handed there isHanded other came stays
    rcases List.suffix_cons_iff.mp there with whole | behind
    · obtain ⟨noted, rfl⟩ := List.cons.inj whole
      obtain ⟨rfl, rfl⟩ := Prod.mk.inj noted
      have isEntry : handed = entry := by
        cases latest <;> simp_all [Event.left?, Event.handedBack?]
      subst isEntry
      rw [gone, List.mem_cons, not_or] at stays
      have inBag := (List.mem_append.mp (fair.accounted.mem_iff.mpr came)).resolve_right stays.2
      exact first isHanded other ((List.mem_cons.mp (perm.mem_iff.mp inBag)).resolve_left stays.1)
    · exact fair.inOrder now latest older handed behind isHanded other came stays

/-- Several entries leave, one after the other. -/
theorem leaveAll (fair : bag.Fair) (event : Entry → Event) {gone rest : List Entry}
    (perm : bag.entries.Perm (gone ++ rest)) (left : ∀ entry, (event entry).left? = some entry)
    (first : ∀ front entry back, gone = front ++ entry :: back →
      (event entry).handedBack? = some entry →
        ∀ other ∈ back ++ rest, entry.releaseKey < other.releaseKey)
    (onTime : ∀ entry ∈ gone, event entry = .due entry → bag.now = entry.leavesAt) :
    Fair ({ bag with entries := rest }.note (gone.map event)) := by
  induction gone generalizing bag with
  | nil =>
    have accounted := (perm.append_right (leftIn bag.trace)).symm.trans fair.accounted
    have held : ∀ entry ∈ rest, entry ∈ bag.entries := fun entry isHeld ↦ perm.mem_iff.mpr isHeld
    exact { fair with accounted, held := fun entry isHeld ↦ fair.held entry (held entry isHeld) }
  | cons entry gone ih =>
    have next := fair.leave perm (left entry) (first [] entry gone rfl) (onTime entry (.head _))
    have all := ih next (.refl _)
      (fun front other back split ↦ first (entry :: front) other back (congrArg _ split))
      (fun other isGone ↦ onTime other (.tail _ isGone))
    simpa [note] using all

/-- The entries to be handed back are handed back in order. -/
theorem handBack (fair : bag.Fair) (event : Entry → Event) {gone rest : List Entry}
    (perm : bag.entries.Perm (gone ++ rest)) (left : ∀ entry, (event entry).left? = some entry)
    (before : ∀ entry ∈ gone, ∀ other ∈ rest, entry.releaseKey < other.releaseKey)
    (onTime : ∀ entry ∈ gone, event entry = .due entry → bag.now = entry.leavesAt) :
    Fair ({ bag with entries := rest }.note ((inOrderOf Entry.releaseKey gone).map event)) := by
  have distinct : (gone.map Entry.releaseKey).Nodup := by
    have all := (perm.map Entry.releaseKey).nodup_iff.mp fair.nodup_releaseKey
    rw [List.map_append] at all
    exact all.of_append_left
  have strict := inOrderOf_strict distinct
  apply fair.leaveAll event _ left
  · intro front entry back split _ other isLater
    rw [split, List.pairwise_append, List.pairwise_cons] at strict
    rcases List.mem_append.mp isLater with behind | stays
    · exact strict.2.1.1 other behind
    · have isGone : entry ∈ inOrderOf Entry.releaseKey gone := by simp [split]
      exact before entry (mem_inOrderOf.mp isGone) other stays
  · exact fun entry isGone ↦ onTime entry (mem_inOrderOf.mp isGone)
  · exact perm.trans ((inOrderOf_perm _ gone).symm.append_right rest)

theorem releaseAll (fair : bag.Fair) : bag.releaseAll.Fair := by
  apply fair.handBack Event.flushed (by simp) (fun _ ↦ rfl)
  · simp
  · simp

/-- An entry that is due has its time now, since it has not stayed too long. -/
theorem releaseDue (fair : bag.Fair) : bag.releaseDue.Fair := by
  apply fair.handBack Event.due (List.filter_append_perm _ _).symm (fun _ ↦ rfl)
  · intro entry isDue other isLater
    have early : entry.item.retryTime ≤ bag.now := by
      simpa [Backlog.Item.isDue] using (List.mem_filter.mp isDue).2
    have late : bag.now < other.item.retryTime := by
      simpa [Backlog.Item.isDue] using (List.mem_filter.mp isLater).2
    exact Prod.Lex.toLex_lt_toLex.mpr (.inl (early.trans_lt late))
  · intro entry isDue _
    obtain ⟨inBag, early⟩ := List.mem_filter.mp isDue
    obtain ⟨since, inTime⟩ := fair.held entry inBag
    refine le_antisymm inTime (max_le since ?_)
    exact Time.wakeUp_le fair.clock (by simpa [Backlog.Item.isDue] using early)

theorem arrive (fair : bag.Fair) (item : Backlog.Item) (delay : Nat)
    (retryTime : item.retryTime = min (Time.deadline bag.now delay) item.batch.expires) :
    Fair { bag with
      arrivals := bag.arrivals + 1
      entries := { item, arrival := bag.arrivals, since := bag.now } :: bag.entries
      trace := (bag.now, .arrived { item, arrival := bag.arrivals, since := bag.now } delay) ::
        bag.trace } where
  clock := fair.clock
  scheduled now entry after there := by
    rcases List.mem_cons.mp there with new | old
    · cases new
      exact ⟨rfl, retryTime⟩
    · exact fair.scheduled now entry after old
  numbered := by
    rw [List.range_succ, List.reverse_append, ← fair.numbered]
    rfl
  accounted := fair.accounted.cons _
  held entry isHeld := by
    rcases List.mem_cons.mp isHeld with rfl | old
    · exact ⟨le_rfl, le_max_left _ _⟩
    · exact fair.held entry old
  punctual now entry there := by
    rcases List.mem_cons.mp there with new | old
    · cases new
    · exact fair.punctual now entry old
  inOrder now event older entry there handed := by
    rcases List.suffix_cons_iff.mp there with whole | behind
    · cases whole
      simp [Event.handedBack?] at handed
    · exact fair.inOrder now event older entry behind handed

/-- A word about an item that does not come in. -/
theorem refuse (fair : bag.Fair) (item : Backlog.Item) : (bag.note [.refused item]).Fair where
  clock := fair.clock
  scheduled now entry delay there :=
    fair.scheduled now entry delay ((List.mem_cons.mp there).resolve_left (by simp))
  numbered := fair.numbered
  accounted := fair.accounted
  held := fair.held
  punctual now entry there :=
    fair.punctual now entry ((List.mem_cons.mp there).resolve_left (by simp))
  inOrder now event older entry there handed := by
    rcases List.suffix_cons_iff.mp there with whole | behind
    · cases whole
      simp [Event.handedBack?] at handed
    · exact fair.inOrder now event older entry behind handed

theorem add (fair : bag.Fair) (batch : Batch) (delay : Nat) : (bag.add batch delay).Fair := by
  unfold Bag.add
  dsimp only
  split
  · exact fair
  · split
    · exact fair.refuse _
    · have split := bag.makeRoom_perm (Backlog.Item.schedule bag.now batch delay).lineCount
      have room := fair.leaveAll Event.evicted split.symm (fun _ ↦ rfl)
        (by simp [Event.handedBack?]) (by simp)
      simpa [note] using room.arrive (.schedule bag.now batch delay) delay rfl

/-- Time passes, but not beyond the time of an entry. -/
theorem pass (fair : bag.Fair) {target : Nat} (whole : Time.nanosPerMilli ∣ target)
    (later : bag.now ≤ target) (early : ∀ entry ∈ bag.entries, target ≤ entry.leavesAt) :
    Fair { bag with now := target } :=
  { fair with
    clock := whole
    held := fun entry held ↦ ⟨(fair.held entry held).1.trans later, early entry held⟩ }

/-- Entries leave at whole milliseconds. -/
theorem dvd_leavesAt (fair : bag.Fair) {entry : Entry} (held : entry ∈ bag.entries) :
    Time.nanosPerMilli ∣ entry.leavesAt := by
  obtain ⟨since, inTime⟩ := fair.held entry held
  unfold Entry.leavesAt at inTime ⊢
  rcases max_choice entry.since (Time.wakeUp entry.item.retryTime) with same | same
  · rw [same] at inTime ⊢
    exact le_antisymm inTime since ▸ fair.clock
  · rw [same]
    exact Time.dvd_wakeUp _

theorem dvd_awaited (fair : bag.Fair) (duration : Nat) :
    Time.nanosPerMilli ∣ bag.awaited duration := by
  have whole : ∀ instant ∈ bag.entries.map Entry.leavesAt, Time.nanosPerMilli ∣ instant :=
    List.forall_mem_map.mpr fun entry held ↦ fair.dvd_leavesAt held
  exact dvd_foldr_min (Time.dvd_wakeUp _) whole

theorem await (fair : bag.Fair) (duration : Nat) : (bag.take (.await duration)).Fair := by
  have later : bag.now ≤ bag.awaited duration := Bag.le_awaited_iff.mpr
    ⟨(Time.le_deadline _ _).trans (Time.le_wakeUp _), fun entry held ↦ (fair.held entry held).2⟩
  exact fair.pass (fair.dvd_awaited duration) later (Bag.le_awaited_iff.mp le_rfl).2

theorem tick (fair : bag.Fair) (quiet : bag.Quiet) : bag.tick.Fair := by
  refine (fair.pass ?_ (Nat.le_add_right _ _) fun entry held ↦ ?_).releaseDue
  · exact Nat.dvd_add_self_right.mpr fair.clock
  · exact (Time.add_le_wakeUp fair.clock (quiet entry held)).trans (le_max_right _ _)

theorem iterate_tick (fair : bag.Fair) (quiet : bag.Quiet) (ticks : Nat) :
    (Bag.tick^[ticks] bag).Fair ∧ (Bag.tick^[ticks] bag).Quiet := by
  induction ticks with
  | zero => exact ⟨fair, quiet⟩
  | succ ticks ih =>
    rw [Function.iterate_succ_apply']
    exact ⟨ih.1.tick ih.2, quiet_releaseDue _⟩

theorem take (fair : bag.Fair) (turn : Timeline.Turn) : (bag.take turn).Fair := by
  match turn with
  | .command (.add batch delay) => exact fair.add batch delay
  | .command .releaseAll => exact fair.releaseAll
  | .command (.sleep duration) => exact (fair.releaseDue.iterate_tick (quiet_releaseDue bag) _).1
  | .command .close | .command .stopListening | .command .abandon => exact fair
  | .alarm => exact fair.releaseDue
  | .await duration => exact fair.await duration

theorem run (limit : Nat) (turns : List Timeline.Turn) : (Bag.run limit turns).Fair := by
  induction turns using List.reverseRecOn with
  | nil => exact start limit
  | append_singleton turns turn ih =>
    rw [Bag.run, List.foldl_append]
    exact ih.take turn

end Fair

end Bag

end LineDelivery
