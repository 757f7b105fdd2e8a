import LineDelivery.Proofs.Backlog.Alarm
import LineDelivery.Proofs.Backlog.Passage
import LineDelivery.Proofs.Backlog.Room
import Mathlib.Data.List.InsertIdx
import Mathlib.Order.MinMax

/-!
# The alarm keeps the schedule

A timeline whose backlog is open shows the same as a plain bag that goes through the same turns. The
backlog has the entries of the bag in the order in which they are handed back; so what is due stands
in front, its alarm misses nothing, and the first of those that expire first is the one that the bag
removes.
-/

namespace LineDelivery

namespace Backlog

/-- In order, what is due stands in front. -/
theorem InOrder.filter_isDue {items : List Item} (inOrder : InOrder items) (now : Nat) :
    items.filter (Item.isDue now) = items.takeWhile (Item.isDue now) ∧
      items.filter (!Item.isDue now ·) = items.dropWhile (Item.isDue now) := by
  have due : ∀ item ∈ items.takeWhile (Item.isDue now), Item.isDue now item := by
    intro item ahead
    exact List.mem_takeWhile_imp ahead
  have notDue : ∀ item ∈ items.dropWhile (Item.isDue now), ¬ Item.isDue now item := by
    intro item behind
    have late := inOrder.lt_of_mem_dropWhile behind
    simpa [Item.isDue] using late
  constructor
  · conv_lhs => rw [← List.takeWhile_append_dropWhile (p := Item.isDue now) (l := items)]
    rw [List.filter_append, List.filter_eq_self.mpr due, List.filter_eq_nil_iff.mpr notDue,
      List.append_nil]
  · conv_lhs => rw [← List.takeWhile_append_dropWhile (p := Item.isDue now) (l := items)]
    rw [List.filter_append, List.filter_eq_nil_iff.mpr (by simpa using due),
      List.filter_eq_self.mpr (by simpa using notDue), List.nil_append]

namespace Sound

variable {backlog : Backlog} {time : Nat}

theorem opened_of_alarm (sound : backlog.Sound) (alarm : backlog.alarm = some time) :
    backlog.closed = false := by
  cases closed : backlog.closed with
  | false => rfl
  | true => simp [sound.alarm, closed] at alarm

/-- The alarm stands at the first item. -/
theorem items_of_alarm (sound : backlog.Sound) (alarm : backlog.alarm = some time) :
    ∃ first rest, backlog.items = first :: rest ∧ first.retryTime = time := by
  have first := sound.alarm
  simp only [alarm, sound.opened_of_alarm alarm, Bool.false_eq_true, if_false, alarmFor] at first
  obtain ⟨item, isFirst, isTime⟩ := Option.map_eq_some_iff.mp first.symm
  obtain ⟨rest, items⟩ := List.head?_eq_some_iff.mp isFirst
  exact ⟨item, rest, items, isTime⟩

theorem items_of_unset (sound : backlog.Sound) (opened : backlog.closed = false)
    (unset : backlog.alarm = none) : backlog.items = [] := by
  have headless : backlog.items.head?.map Item.retryTime = none := by
    simpa [unset, opened, alarmFor] using sound.alarm.symm
  exact List.head?_eq_none_iff.mp (Option.map_eq_none_iff.mp headless)

/-- The alarm stands at the earliest retry. -/
theorem alarm_le (sound : backlog.Sound) (alarm : backlog.alarm = some time) {item : Item}
    (held : item ∈ backlog.items) : time ≤ item.retryTime := by
  by_contra late
  have notDue : backlog.alarmDue item.retryTime = false := by simpa [alarmDue, alarm] using late
  exact lt_irrefl _ (sound.lt_retryTime (sound.opened_of_alarm alarm) notDue held)

end Sound

end Backlog

open Bag (Entry inOrderOf dropTo)

/-! ## Making room -/

namespace Bag

theorem dropTo_of_le {wanted : Nat} {entries : List Entry} (few : totalLines entries ≤ wanted) :
    dropTo wanted entries = ([], entries) := by
  cases entries with
  | nil => rfl
  | cons entry rest => exact if_pos few

theorem inOrderOf_filter {entries : List Entry} (distinct : (entries.map Entry.releaseKey).Nodup)
    (p : Entry → Bool) : inOrderOf Entry.releaseKey (entries.filter p) =
      (inOrderOf Entry.releaseKey entries).filter p :=
  inOrderOf_eq ((inOrderOf_perm _ entries).filter p)
    ((inOrderOf_strict distinct).sublist List.filter_sublist)

/-- The first of those that expire first is, of all entries, the first to go. -/
theorem exists_nextVictim? {sorted : List Entry}
    (strict : sorted.Pairwise fun first second ↦ first.releaseKey < second.releaseKey)
    {eviction : Backlog.Eviction} (kept : eviction.kept = sorted.map Entry.item)
    (filled : sorted ≠ []) : ∃ position, ∃ inside : position < sorted.length,
      eviction.nextVictim? = some position ∧
        ∀ other ∈ sorted.eraseIdx position,
          sorted[position].evictionKey < other.evictionKey := by
  have nonempty : eviction.kept ≠ [] := by simpa [kept] using filled
  obtain ⟨position, found⟩ : ∃ position, eviction.kept.minIdxOn (·.batch.expires) nonempty =
    position := ⟨_, rfl⟩
  obtain ⟨inside, least, first⟩ := (List.minIdxOn_eq_iff nonempty).mp found
  simp only [kept, List.length_map, List.getElem_map] at inside least first
  refine ⟨position, inside, ?_, ?_⟩
  · exact (Backlog.Eviction.nextVictim?_eq nonempty).trans (congrArg some found)
  · intro other there
    obtain ⟨index, bound, apart, rfl⟩ := List.mem_eraseIdx_iff_getElem.mp there
    rcases Nat.lt_or_gt_of_ne apart with before | behind
    · exact Prod.Lex.toLex_lt_toLex.mpr (.inl (first index before))
    · have key := List.pairwise_iff_getElem.mp strict position index inside bound behind
      rcases (least index bound).lt_or_eq with earlier | same
      · exact Prod.Lex.toLex_lt_toLex.mpr (.inl earlier)
      · exact Prod.Lex.toLex_lt_toLex.mpr (.inr ⟨same, key⟩)

/-- From the one eviction to the other, of these entries those are removed that a bag drops, and the
rest keeps its order. -/
structure Evicts (wanted : Nat) (sorted : List Entry) (before after : Backlog.Eviction) : Prop where
  removed : after.removed = before.removed ++
    (dropTo wanted (inOrderOf Entry.evictionKey sorted)).1.map Entry.item
  kept : ∃ left : List Entry, after.kept = left.map Entry.item ∧ left.Sublist sorted ∧
    left.Perm (dropTo wanted (inOrderOf Entry.evictionKey sorted)).2

section

variable {sorted : List Entry} {eviction after : Backlog.Eviction} {wanted : Nat}

theorem totalLines_inOrderOf (kept : eviction.kept = sorted.map Entry.item)
    (measured : eviction.Measured) :
    totalLines (inOrderOf Entry.evictionKey sorted) = eviction.size := by
  rw [measured, kept]
  exact Backlog.totalLines_perm ((inOrderOf_perm _ sorted).map _)

theorem Evicts.refl (kept : eviction.kept = sorted.map Entry.item) (measured : eviction.Measured)
    (few : eviction.size ≤ wanted) : Evicts wanted sorted eviction eviction := by
  have none := dropTo_of_le ((totalLines_inOrderOf kept measured).trans_le few)
  refine ⟨by simp [none], sorted, kept, .refl _, ?_⟩
  simpa [none] using (inOrderOf_perm _ sorted).symm

theorem Evicts.head (kept : eviction.kept = sorted.map Entry.item) (measured : eviction.Measured)
    (many : ¬ eviction.size ≤ wanted) {position : Nat} (inside : position < sorted.length)
    (distinct : (sorted.map Entry.evictionKey).Nodup)
    (least : ∀ other ∈ sorted.eraseIdx position,
      sorted[position].evictionKey < other.evictionKey)
    (rest : Evicts wanted (sorted.eraseIdx position) (eviction.removeAt position) after) :
    Evicts wanted sorted eviction after := by
  have order : inOrderOf Entry.evictionKey sorted = sorted[position] ::
      inOrderOf Entry.evictionKey (sorted.eraseIdx position) := by
    apply inOrderOf_eq
    · exact ((inOrderOf_perm _ _).cons _).trans (List.getElem_cons_eraseIdx_perm inside)
    · refine List.pairwise_cons.mpr ⟨fun other there ↦ least other (mem_inOrderOf.mp there), ?_⟩
      exact inOrderOf_strict (distinct.sublist ((List.eraseIdx_sublist _ _).map _))
  have drops : dropTo wanted (inOrderOf Entry.evictionKey sorted) =
      (sorted[position] :: (dropTo wanted (inOrderOf Entry.evictionKey
        (sorted.eraseIdx position))).1,
        (dropTo wanted (inOrderOf Entry.evictionKey (sorted.eraseIdx position))).2) := by
    rw [← totalLines_inOrderOf kept measured, order] at many
    rw [order]
    exact if_neg many
  obtain ⟨left, isKept, sublist, perm⟩ := rest.kept
  refine ⟨?_, left, isKept, sublist.trans (List.eraseIdx_sublist _ _), by rwa [drops]⟩
  rw [rest.removed, Backlog.Eviction.removeAt_eq (by simpa [kept] using inside), drops]
  simp [kept]

/-- Making room removes what the bag removes. -/
theorem evicts_runTo (wanted : Nat) {removals : Nat}
    (strict : sorted.Pairwise fun first second ↦ first.releaseKey < second.releaseKey)
    (eviction : Backlog.Eviction) (kept : eviction.kept = sorted.map Entry.item)
    (measured : eviction.Measured) (enough : sorted.length ≤ removals) :
    Evicts wanted sorted eviction (eviction.runTo wanted removals) := by
  induction removals generalizing eviction sorted with
  | zero =>
    obtain rfl := List.eq_nil_of_length_eq_zero (Nat.le_zero.mp enough)
    refine .refl kept measured ?_
    rw [measured, kept]
    exact Nat.zero_le _
  | succ removals ih =>
    unfold Backlog.Eviction.runTo
    split
    · next few => exact .refl kept measured few
    · next many =>
      have filled : sorted ≠ [] := by
        rintro rfl
        rw [measured, kept] at many
        exact many (Nat.zero_le _)
      obtain ⟨position, inside, victim, least⟩ := exists_nextVictim? strict kept filled
      have distinct : (sorted.map Entry.evictionKey).Nodup := by
        refine List.pairwise_map.mpr (strict.imp fun less same ↦ less.ne ?_)
        exact congrArg (fun key ↦ (ofLex key).2) same
      rw [victim]
      refine .head kept measured many inside distinct least (ih ?_ _ ?_ ?_ ?_)
      · exact strict.sublist (List.eraseIdx_sublist _ _)
      · rw [Backlog.Eviction.removeAt_eq (by simpa [kept] using inside), ← List.eraseIdx_map]
        exact congrArg (List.eraseIdx · position) kept
      · exact measured.removeAt position
      · rw [List.length_eraseIdx_of_lt inside]
        omega

end

end Bag

namespace Timeline

variable {timeline : Timeline} {bag : Bag}

/-- A timeline and a bag show the same. -/
structure Shows (timeline : Timeline) (bag : Bag) : Prop where
  now : timeline.now = bag.now
  limit : timeline.backlog.limit = bag.limit
  items : timeline.backlog.items = (inOrderOf Entry.releaseKey bag.entries).map Entry.item
  trace : timeline.trace = bag.shownTrace

/-- What the turns keep up, so that the two go on showing the same. -/
structure Follows (timeline : Timeline) (bag : Bag) : Prop extends Shows timeline bag where
  listening : timeline.listening
  opened : timeline.backlog.closed = false
  sound : timeline.backlog.Sound
  measured : timeline.backlog.Measured
  fair : bag.Fair

namespace Follows

theorem start (limit : Nat) : Follows (.start limit) (.start limit) where
  now := rfl
  limit := rfl
  items := by simp [Timeline.start, Backlog.empty, Bag.start, inOrderOf]
  trace := rfl
  listening := rfl
  opened := rfl
  sound := .empty limit
  measured := .empty limit
  fair := .start limit

theorem mem_items (follows : Follows timeline bag) {entry : Entry} (held : entry ∈ bag.entries) :
    entry.item ∈ timeline.backlog.items :=
  follows.items ▸ List.mem_map_of_mem (Bag.mem_inOrderOf.mpr held)

theorem entries_of_unset (follows : Follows timeline bag)
    (unset : timeline.backlog.alarm = none) : bag.entries = [] := by
  have none := follows.sound.items_of_unset follows.opened unset
  exact List.eq_nil_iff_forall_not_mem.mpr fun entry held ↦ by
    simpa [none] using follows.mem_items held

theorem exists_entry (follows : Follows timeline bag) {item : Backlog.Item}
    (held : item ∈ timeline.backlog.items) : ∃ entry ∈ bag.entries, entry.item = item := by
  obtain ⟨entry, inBag, isItem⟩ := List.mem_map.mp (follows.items ▸ held)
  exact ⟨entry, Bag.mem_inOrderOf.mp inBag, isItem⟩

theorem quiet (follows : Follows timeline bag)
    (quiet : timeline.backlog.alarmDue timeline.now = false) : bag.Quiet := by
  intro entry held
  rw [← follows.now]
  exact follows.sound.lt_retryTime follows.opened quiet (follows.mem_items held)

/-- Both note the same, and have the same entries afterwards. -/
theorem note (follows : Follows timeline bag) {backlog : Backlog} {arrivals : Nat}
    {entries : List Entry} {seen : List Backlog.Event} {events : List Bag.Event}
    (shown : events.map (Bag.Event.shown bag.limit) = seen)
    (items : backlog.items = (inOrderOf Entry.releaseKey entries).map Entry.item)
    (limit : backlog.limit = timeline.backlog.limit)
    (opened : backlog.closed = timeline.backlog.closed)
    (sound : backlog.Sound) (measured : backlog.Measured)
    (fair : ({ bag with arrivals, entries }.note events).Fair) :
    Follows { timeline with backlog, trace := timeline.stamped seen ++ timeline.trace }
      ({ bag with arrivals, entries }.note events) where
  now := follows.now
  limit := limit.trans follows.limit
  items := items
  trace := by
    rw [Bag.shownTrace_note, shown, stamped, follows.now, follows.trace]
    rfl
  listening := follows.listening
  opened := opened.trans follows.opened
  sound := sound
  measured := measured
  fair := fair

/-- Both hand back the same batches in the same order. -/
theorem handBack (follows : Follows timeline bag) (event : Entry → Bag.Event)
    {outcome : Backlog × List Batch} {gone rest : List Entry}
    (shown : ∀ entry, (event entry).shown bag.limit = .released entry.item.batch)
    (batches : outcome.2 = gone.map (·.item.batch))
    (items : outcome.1.items = (inOrderOf Entry.releaseKey rest).map Entry.item)
    (limit : outcome.1.limit = timeline.backlog.limit)
    (opened : outcome.1.closed = timeline.backlog.closed)
    (sound : outcome.1.Sound) (measured : outcome.1.Measured)
    (fair : ({ bag with entries := rest }.note (gone.map event)).Fair) :
    Follows (timeline.settleWith outcome) ({ bag with entries := rest }.note (gone.map event)) := by
  have isShown : (gone.map event).map (Bag.Event.shown bag.limit) =
      outcome.2.map timeline.handedBack := by
    simp [shown, batches, handedBack, follows.listening]
  rw [settleWith_eq]
  exact follows.note isShown items limit opened sound measured fair

theorem settle (follows : Follows timeline bag) : Follows timeline.settle bag.releaseDue := by
  unfold Timeline.settle
  split
  · obtain ⟨isDue, isLeft⟩ := follows.sound.inOrder.filter_isDue timeline.now
    rw [follows.items, follows.now, List.filter_map] at isDue isLeft
    have distinct := follows.fair.nodup_releaseKey
    apply follows.handBack Bag.Event.due (fun _ ↦ rfl)
    · rw [Bag.inOrderOf_filter distinct, Backlog.fire, follows.items, follows.now, ← isDue,
        List.map_map]
      rfl
    · rw [Bag.inOrderOf_filter distinct, Backlog.fire, follows.items, follows.now, ← isLeft]
      rfl
    · rfl
    · rfl
    · exact follows.sound.fire follows.opened _
    · exact follows.measured.fire _
    · exact follows.fair.releaseDue
  · next notDue =>
    rw [Bag.releaseDue_of_quiet (follows.quiet (Bool.eq_false_iff.mpr notDue))]
    exact follows

/-- When the alarm goes off, something is handed back. -/
theorem length_settle_lt (follows : Follows timeline bag) {alarm : Nat}
    (isSet : timeline.backlog.alarm = some alarm) (due : alarm ≤ timeline.now) :
    timeline.settle.backlog.items.length < timeline.backlog.items.length := by
  have isDue : timeline.backlog.alarmDue timeline.now := by
    simpa [Backlog.alarmDue, isSet] using due
  unfold Timeline.settle
  rw [if_pos isDue, settleWith_eq]
  obtain ⟨item, rest, items, rfl⟩ := follows.sound.items_of_alarm isSet
  have shorter := (List.dropWhile_sublist (l := rest) (Backlog.Item.isDue timeline.now)).length_le
  simp only [Backlog.fire, items]
  rw [List.dropWhile_cons_of_pos (by simpa [Backlog.Item.isDue] using due), List.length_cons]
  exact Nat.lt_succ_of_le shorter

theorem releaseAll (follows : Follows timeline bag) :
    Follows (timeline.settleWith timeline.backlog.releaseAll) bag.releaseAll := by
  apply follows.handBack Bag.Event.flushed (fun _ ↦ rfl)
  · rw [Backlog.releaseAll, follows.items, List.map_map]
    rfl
  · simp [Backlog.releaseAll, inOrderOf]
  · rfl
  · rfl
  · exact .releaseAll _
  · exact .releaseAll _
  · exact follows.fair.releaseAll

/-- Both remove the same entries to make room. -/
theorem makeRoom (follows : Follows timeline bag) (incoming : Nat) :
    (timeline.backlog.makeRoom incoming).removed =
        (bag.makeRoom incoming).1.map Entry.item ∧
      ∃ left : List Entry, (timeline.backlog.makeRoom incoming).kept = left.map Entry.item ∧
        left.Sublist (inOrderOf Entry.releaseKey bag.entries) ∧
        left.Perm (bag.makeRoom incoming).2 := by
  have size : Bag.totalLines bag.entries = timeline.backlog.size := by
    rw [follows.measured.size, follows.items]
    exact (Backlog.totalLines_perm ((Bag.inOrderOf_perm _ _).map _)).symm
  unfold Backlog.makeRoom Backlog.wantedSize Bag.makeRoom
  dsimp only
  rw [size, follows.limit]
  split
  · exact ⟨rfl, _, follows.items, .refl _, Bag.inOrderOf_perm _ _⟩
  · have strict := Bag.inOrderOf_strict follows.fair.nodup_releaseKey
    have enough : (inOrderOf Entry.releaseKey bag.entries).length ≤
        timeline.backlog.items.length := by simp [follows.items]
    obtain ⟨removed, kept⟩ := Bag.evicts_runTo
      (min (timeline.backlog.size * 7 / 10) (bag.limit - incoming)) strict
      (.start timeline.backlog.items timeline.backlog.size) follows.items follows.measured.size
      enough
    rw [Bag.inOrderOf_congr (Bag.inOrderOf_perm _ _) follows.fair.nodup_evictionKey] at removed kept
    exact ⟨removed, kept⟩

/-- The new entry goes where it belongs in the order. -/
theorem insert (follows : Follows timeline bag) {room : Backlog.Eviction} {kept left : List Entry}
    {entry : Entry} (arrival : entry.arrival = bag.arrivals)
    (isKept : room.kept = left.map Entry.item)
    (sublist : left.Sublist (inOrderOf Entry.releaseKey bag.entries)) (perm : left.Perm kept) :
    (timeline.backlog.insert room entry.item).items =
      (inOrderOf Entry.releaseKey (entry :: kept)).map Entry.item := by
  let early := fun held : Entry ↦ decide (held.item.retryTime ≤ entry.item.retryTime)
  have strict := (Bag.inOrderOf_strict follows.fair.nodup_releaseKey).sublist sublist
  have inOrder : Backlog.InOrder (left.map Entry.item) :=
    (follows.items ▸ follows.sound.inOrder).sublist (sublist.map Entry.item)
  have ahead : ∀ held ∈ left.takeWhile early, held.releaseKey < entry.releaseKey := by
    intro held there
    have notLater : held.item.retryTime ≤ entry.item.retryTime := by
      simpa [early] using List.mem_takeWhile_imp there
    have inBag := Bag.mem_inOrderOf.mp (sublist.subset ((List.takeWhile_sublist _).subset there))
    have older := arrival ▸ follows.fair.arrival_lt inBag
    exact Prod.Lex.toLex_lt_toLex.mpr (notLater.lt_or_eq.imp_right fun same ↦ ⟨same, older⟩)
  have behind : ∀ held ∈ left.dropWhile early, entry.releaseKey < held.releaseKey := by
    intro held there
    have later : entry.item.retryTime < held.item.retryTime := by
      apply inOrder.lt_of_mem_dropWhile
      rw [List.dropWhile_map]
      exact List.mem_map_of_mem there
    exact Prod.Lex.toLex_lt_toLex.mpr (.inl later)
  have order : inOrderOf Entry.releaseKey (entry :: kept) =
      left.takeWhile early ++ entry :: left.dropWhile early := by
    apply Bag.inOrderOf_eq
    · exact List.perm_middle.trans (by simpa using perm)
    · rw [← List.takeWhile_append_dropWhile (p := early) (l := left),
        List.pairwise_append] at strict
      refine List.pairwise_append.mpr ⟨strict.1, List.pairwise_cons.mpr ⟨behind, strict.2.1⟩, ?_⟩
      intro first isAhead second there
      rcases List.mem_cons.mp there with rfl | isBehind
      · exact ahead first isAhead
      · exact strict.2.2 first isAhead second isBehind
  rw [order, Backlog.insert]
  simp [isKept, List.takeWhile_map, List.dropWhile_map, Function.comp_def, early]

theorem add (follows : Follows timeline bag) (batch : Batch) (delay : Nat) :
    Follows (timeline.perform (.add batch delay)) (bag.add batch delay) := by
  have sound := follows.sound.add timeline.now batch delay
  have measured := follows.measured.add timeline.now batch delay
  have fair := follows.fair.add batch delay
  rw [perform_add]
  generalize timeline.backlog.add timeline.now batch delay = result,
    timeline.backlog.add_added timeline.now batch delay = added at sound measured ⊢
  rw [follows.now] at added
  unfold Bag.add at fair ⊢
  dsimp only at fair ⊢
  cases added with
  | ignored useless =>
    have empty : batch.lines = [] := useless.resolve_right (by simp [follows.opened])
    simpa [empty, stamped] using follows
  | refused useful _ large =>
    have filled : ¬ batch.lines.isEmpty := mt List.isEmpty_iff.mp useful
    rw [follows.limit] at large
    rw [if_neg filled, if_pos large] at fair ⊢
    apply follows.note _ follows.items rfl rfl sound measured fair
    simp [Bag.Event.shown, follows.limit]
  | taken useful _ fits =>
    have filled : ¬ batch.lines.isEmpty := mt List.isEmpty_iff.mp useful
    rw [follows.limit] at fits
    rw [if_neg filled, if_neg (Nat.not_lt.mpr fits)] at fair ⊢
    obtain ⟨removed, left, isKept, sublist, perm⟩ :=
      follows.makeRoom (Backlog.Item.schedule bag.now batch delay).lineCount
    apply follows.note _ (follows.insert rfl isKept sublist perm) rfl rfl sound measured fair
    simp [removed, Bag.Event.shown, follows.limit]

/-- Time passes, and nothing falls due before. -/
theorem pass (follows : Follows timeline bag) {target : Nat} (whole : Time.nanosPerMilli ∣ target)
    (later : bag.now ≤ target)
    (early : ∀ entry ∈ bag.entries, target ≤ entry.leavesAt) :
    Follows { timeline with now := target } { bag with now := target } :=
  { follows with now := rfl, fair := follows.fair.pass whole later early }

/-- Time passes, and nothing falls due. -/
theorem rest (follows : Follows timeline bag) {target : Nat} (whole : Time.nanosPerMilli ∣ target)
    (later : bag.now ≤ target) (quiet : ∀ entry ∈ bag.entries, target < entry.item.retryTime) :
    Follows { timeline with now := target }
      (Bag.tick^[(target - bag.now) / Time.nanosPerMilli] bag.releaseDue) := by
  have early : ∀ entry ∈ bag.entries, target ≤ Time.wakeUp entry.item.retryTime :=
    fun entry held ↦ (quiet entry held).le.trans (Time.le_wakeUp _)
  have quietThen : Bag.Quiet { bag with now := target } := quiet
  rw [Bag.iterate_tick_releaseDue follows.fair.clock whole later
    fun entry held ↦ (early entry held).trans (le_max_right _ _), Bag.releaseDue_of_quiet quietThen]
  exact follows.pass whole later fun entry held ↦ (early entry held).trans (le_max_right _ _)

/-- The clock stands at a whole instant when the alarm goes off. -/
theorem dvd_wake (follows : Follows timeline bag) (alarm : Nat) :
    Time.nanosPerMilli ∣ max bag.now (Time.wakeUp alarm) := by
  rcases max_choice bag.now (Time.wakeUp alarm) with same | same
  · exact same.symm ▸ follows.fair.clock
  · exact same.symm ▸ Time.dvd_wakeUp alarm

/-- Until the alarm goes off nothing is missed, since it stands at the earliest retry. -/
theorem wake (follows : Follows timeline bag) {alarm wake : Nat}
    (isSet : timeline.backlog.alarm = some alarm)
    (isWake : wake = max bag.now (Time.wakeUp alarm)) :
    Follows { timeline with now := wake } { bag with now := wake } ∧
      Bag.tick^[(wake - bag.now) / Time.nanosPerMilli] bag.releaseDue =
        { bag with now := wake }.releaseDue := by
  have whole : Time.nanosPerMilli ∣ wake := isWake ▸ follows.dvd_wake alarm
  have later : bag.now ≤ wake := isWake ▸ le_max_left _ _
  have earliest : ∀ entry ∈ bag.entries,
      Time.wakeUp alarm ≤ Time.wakeUp entry.item.retryTime := fun entry held ↦
    Time.wakeUp_le (Time.dvd_wakeUp _)
      ((follows.sound.alarm_le isSet (follows.mem_items held)).trans (Time.le_wakeUp _))
  constructor
  · exact follows.pass whole later fun entry held ↦ isWake.trans_le
      (max_le (follows.fair.held entry held).2 ((earliest entry held).trans (le_max_right _ _)))
  · exact Bag.iterate_tick_releaseDue follows.fair.clock whole later
      fun entry held ↦ isWake.trans_le (max_le_max le_rfl (earliest entry held))

/-- From one alarm to the next nothing is missed, and so nothing is until the end of the sleep. -/
theorem sleepUntil (follows : Follows timeline bag) {target alarms : Nat}
    (whole : Time.nanosPerMilli ∣ target) (later : bag.now ≤ target)
    (enough : timeline.backlog.items.length ≤ alarms) :
    Follows (timeline.sleepUntil target alarms)
      (Bag.tick^[(target - bag.now) / Time.nanosPerMilli] bag.releaseDue) := by
  induction alarms generalizing timeline bag with
  | zero =>
    refine follows.rest whole later fun entry held ↦ ?_
    simpa [List.eq_nil_of_length_eq_zero (Nat.le_zero.mp enough)] using follows.mem_items held
  | succ alarms ih =>
    unfold Timeline.sleepUntil
    split
    · next unset =>
      exact follows.rest whole later (by simp [follows.entries_of_unset unset])
    · next alarm isSet =>
      split
      · next inTime =>
        obtain ⟨wake, isWake⟩ : ∃ wake, wake = max bag.now (Time.wakeUp alarm) := ⟨_, rfl⟩
        have wholeWake : Time.nanosPerMilli ∣ wake := isWake ▸ follows.dvd_wake alarm
        have laterWake : bag.now ≤ wake := isWake ▸ le_max_left _ _
        have inTimeWake : wake ≤ target := isWake ▸ max_le later inTime
        have due : alarm ≤ wake := isWake ▸ (Time.le_wakeUp alarm).trans (le_max_right _ _)
        obtain ⟨woken, ticks⟩ := follows.wake isSet isWake
        have fewer := (woken.length_settle_lt isSet due).trans_le enough
        have next := ih woken.settle inTimeWake (Nat.le_of_lt_succ fewer)
        rw [Bag.releaseDue_of_quiet (Bag.quiet_releaseDue _), Bag.now_releaseDue, ← ticks,
          ← Function.iterate_add_apply] at next
        have split : (target - bag.now) / Time.nanosPerMilli =
            (target - wake) / Time.nanosPerMilli + (wake - bag.now) / Time.nanosPerMilli := by
          have clock := follows.fair.clock
          unfold Time.nanosPerMilli at *
          omega
        dsimp only
        rwa [follows.now, ← isWake, split]
      · next tooLate =>
        refine follows.rest whole later fun entry held ↦ ?_
        have earliest := follows.sound.alarm_le isSet (follows.mem_items held)
        by_contra isDue
        exact tooLate (Time.wakeUp_le whole (earliest.trans (Nat.le_of_not_lt isDue)))

/-- The alarm stands where the first entry of the bag leaves. -/
theorem awaited_eq (follows : Follows timeline bag) (duration : Nat) :
    timeline.awaited duration = bag.awaited duration := by
  refine eq_of_forall_le_iff fun instant ↦ ?_
  rw [Bag.le_awaited_iff, Timeline.awaited, follows.now]
  generalize Time.wakeUp (Time.deadline bag.now duration) = target
  split
  · next unset => simp [follows.entries_of_unset unset]
  · next alarm isSet =>
    rw [le_min_iff]
    refine and_congr_right fun _ ↦ ⟨fun early entry held ↦ early.trans ?_, fun early ↦ ?_⟩
    · have stands := follows.sound.alarm_le isSet (follows.mem_items held)
      have wakes := Time.wakeUp_le (Time.dvd_wakeUp _) (stands.trans (Time.le_wakeUp _))
      exact max_le (follows.fair.held entry held).2 (wakes.trans (le_max_right _ _))
    · obtain ⟨item, rest, items, rfl⟩ := follows.sound.items_of_alarm isSet
      obtain ⟨entry, held, rfl⟩ := follows.exists_entry (items ▸ List.mem_cons_self)
      exact (early entry held).trans (max_le_max_right _ (follows.fair.held entry held).1)

theorem await (follows : Follows timeline bag) (duration : Nat) :
    Follows (timeline.take (.await duration)) (bag.take (.await duration)) := by
  have fair := follows.fair.await duration
  rw [Timeline.take, follows.awaited_eq]
  exact { follows with now := rfl, fair }

theorem take (follows : Follows timeline bag) {turn : Turn} (opened : turn.KeepsOpen) :
    Follows (timeline.take turn) (bag.take turn) := by
  match turn with
  | .command (.add batch delay) => exact follows.add batch delay
  | .command .releaseAll => exact follows.releaseAll
  | .command (.sleep duration) =>
    unfold Timeline.take perform
    dsimp only
    rw [follows.now]
    refine follows.sleepUntil (Time.dvd_wakeUp _) ?_ le_rfl
    exact (Time.le_deadline _ _).trans (Time.le_wakeUp _)
  | .alarm => exact follows.settle
  | .await duration => exact follows.await duration

theorem run {limit : Nat} {turns : List Turn} (opened : ∀ turn ∈ turns, turn.KeepsOpen) :
    Follows (Timeline.run limit turns) (Bag.run limit turns) := by
  induction turns using List.reverseRecOn with
  | nil => exact start limit
  | append_singleton turns turn ih =>
    simp only [List.forall_mem_append, List.forall_mem_singleton] at opened
    rw [Timeline.run, Bag.run, List.foldl_append, List.foldl_append]
    exact (ih opened.1).take opened.2

end Follows

/-- Whatever is added, released at once and waited for, a timeline shows the same as a fair bag, and
nothing is due that is still held when the alarm is quiet. -/
theorem shows_run (limit : Nat) {turns : List Turn} (opened : ∀ turn ∈ turns, turn.KeepsOpen) :
    Shows (run limit turns) (.run limit turns) ∧ (Bag.run limit turns).Fair ∧
      ((run limit turns).backlog.alarmDue (run limit turns).now = false →
        ∀ item ∈ (run limit turns).backlog.items, (run limit turns).now < item.retryTime) := by
  have follows : Follows (Timeline.run limit turns) (Bag.run limit turns) := .run opened
  refine ⟨follows.toShows, .run limit turns, fun quiet item held ↦ ?_⟩
  exact follows.sound.lt_retryTime follows.opened quiet held

/-- Turns of a backlog of three lines: the third batch takes the place of the second, the first goes
in the middle of a millisecond, and the fourth comes when it has expired. The last takes the place of
the fifth at the instant at which that would have been handed back. -/
def crowded : List Turn :=
  let batch (serial lines expires : Nat) : Batch :=
    { serial, chunks := List.replicate lines [65, 10], remaining := 1, expires }
  [.command (.add (batch 0 1 10000000) 1500000), .command (.add (batch 1 1 5000000) 7000000),
    .command (.add (batch 2 2 20000000) 3000000), .command (.sleep 2000000),
    .command .releaseAll, .command (.add (batch 3 1 1000000) 0), .alarm,
    .command (.add (batch 4 1 20000000) 3000000), .await 9000000,
    .command (.add (batch 5 3 20000000) 3000000), .alarm]

theorem shows_run_crowded :
    (run 3 crowded).trace.map (fun noted ↦ (noted.1, noted.2 matches .released _)) =
        [(5000000, false), (5000000, false), (2000000, false), (2000000, true), (2000000, false),
          (2000000, true), (2000000, true), (0, false), (0, false), (0, false), (0, false)] ∧
      Shows (run 3 crowded) (.run 3 crowded) ∧ (Bag.run 3 crowded).Fair :=
  have opened : ∀ turn ∈ crowded, turn.KeepsOpen := by decide
  have shown := shows_run 3 opened
  ⟨by decide +kernel, shown.1, shown.2.1⟩

end Timeline

end LineDelivery
