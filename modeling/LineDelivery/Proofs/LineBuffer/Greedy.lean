import LineDelivery.Proofs.LineBuffer.Limits
import Mathlib.Algebra.GroupWithZero.Nat

/-!
# Why a line buffer cuts

An addition cuts a batch only if it has to: the batch is at the line limit, and was not before its
last chunk, or it is past the byte limit, or the chunk that follows it would take it there. As long
as all that is added stays within both limits, nothing is cut.
-/

namespace LineDelivery.LineBuffer

variable {buffer room : LineBuffer} {chunk : Bytes} {cut : Cut} {cuts later : List Cut}
variable {maxLines maxBytes : Nat} {following more : List Bytes}

/-- A batch that these chunks follow did not go on for one of three reasons, and it did not go on
past the line limit. -/
structure Cut.Forced (maxLines maxBytes : Nat) (cut : Cut) (following : List Bytes) : Prop where
  reason : maxLines ≤ Line.count cut.lines ∨ maxBytes < cut.lines.length ∨
    ∃ next ∈ following.head?, maxBytes < cut.lines.length + next.length
  prompt : maxLines ≤ Line.count cut.lines → Line.count cut.chunks.dropLast.flatten < maxLines

theorem Cut.Forced.append (forced : cut.Forced maxLines maxBytes following) :
    cut.Forced maxLines maxBytes (following ++ more) where
  reason := by
    refine forced.reason.imp_right (Or.imp_right ?_)
    rintro ⟨next, first, large⟩
    exact ⟨next, by rw [List.head?_append, Option.mem_def.mp first]; rfl, large⟩
  prompt := forced.prompt

/-- Each of these batches was forced by what followed it: the batches after it, and then these
chunks. -/
def AllForced (maxLines maxBytes : Nat) : List Cut → List Bytes → Prop
  | [], _ => True
  | cut :: cuts, following =>
    cut.Forced maxLines maxBytes (cuts.flatMap Cut.chunks ++ following) ∧
      AllForced maxLines maxBytes cuts following

theorem AllForced.append
    (forced : AllForced maxLines maxBytes cuts (later.flatMap Cut.chunks ++ following))
    (others : AllForced maxLines maxBytes later following) :
    AllForced maxLines maxBytes (cuts ++ later) following := by
  induction cuts with
  | nil => exact others
  | cons cut cuts ih =>
    refine ⟨?_, ih forced.2⟩
    simpa using forced.1

theorem AllForced.follow (forced : AllForced maxLines maxBytes cuts following)
    (more : List Bytes) : AllForced maxLines maxBytes cuts (following ++ more) := by
  induction cuts with
  | nil => trivial
  | cons cut cuts ih =>
    refine ⟨?_, ih forced.2⟩
    rw [← List.append_assoc]
    exact forced.1.append

theorem AllForced.of_split {before after : List Cut}
    (forced : AllForced maxLines maxBytes (before ++ cut :: after) following) :
    cut.Forced maxLines maxBytes (after.flatMap Cut.chunks ++ following) := by
  induction before with
  | nil => exact forced.1
  | cons _ before ih => exact ih forced.2

/-! ## One addition -/

namespace Within

/-- What is held between two calls is cut only because of the next chunk. -/
theorem forced_whole (within : buffer.Within maxLines maxBytes) (filled : buffer.isEmpty = false)
    (tight : buffer.wouldOverflow chunk) :
    buffer.whole.Forced maxLines maxBytes (Line.terminate chunk :: following) where
  reason := by
    rw [wouldOverflow, within.maxBytes_eq, within.byteCount, decide_eq_true_iff] at tight
    exact .inr (.inr ⟨_, rfl, tight⟩)
  prompt full := by
    have few := (within.below.resolve_left (by simp [filled])).1
    rw [within.lineCount] at few
    exact absurd full (Nat.not_le.mpr few)

/-- A buffer that was within its limits is full because of its last chunk. -/
theorem forced_whole_push (within : room.Within maxLines maxBytes) (positive : 1 ≤ maxLines)
    (useful : chunk ≠ []) (full : (room.push chunk).isFull) :
    (room.push chunk).whole.Forced maxLines maxBytes following where
  reason := by
    have counted := within.toCounted.push useful
    have maxLines_eq : (room.push chunk).maxLines = maxLines := within.maxLines_eq
    have maxBytes_eq : (room.push chunk).maxBytes = maxBytes := within.maxBytes_eq
    simp only [isFull, maxLines_eq, maxBytes_eq, counted.lineCount, counted.byteCount,
      Bool.or_eq_true, decide_eq_true_eq] at full
    exact full.imp_right .inl
  prompt _ := by
    have front : (room.push chunk).whole.chunks.dropLast = room.chunks := by
      simp [LineBuffer.whole]
    have lines : room.chunks.flatten = room.lines := rfl
    rw [front, lines, ← within.lineCount]
    rcases within.below with free | below
    · have nothing := within.toCounted.lines.resolve_right (by simp [free])
      rw [within.lineCount, nothing.2]
      exact positive
    · exact below.1

theorem allForced_cleared (within : buffer.Within maxLines maxBytes) {before : List Cut}
    (cleared : Cleared buffer chunk before room) :
    AllForced maxLines maxBytes before (room.chunks ++ [Line.terminate chunk]) := by
  cases cleared with
  | fits | idle => trivial
  | cut tight filled => exact ⟨within.forced_whole filled tight, trivial⟩

theorem allForced_add (within : buffer.Within maxLines maxBytes) (positive : 1 ≤ maxLines)
    (chunk : Bytes) :
    AllForced maxLines maxBytes (buffer.add chunk).1 (buffer.add chunk).2.chunks := by
  generalize buffer.add chunk = result, buffer.adding_add chunk = adding
  cases adding with
  | ignored useless => trivial
  | kept useful cleared roomy =>
    rw [chunks_push]
    exact within.allForced_cleared cleared
  | @cut before room useful cleared full =>
    have chunks : (room.push chunk).whole.chunks = room.chunks ++ [Line.terminate chunk] :=
      chunks_push room chunk
    have first := within.allForced_cleared cleared
    obtain ⟨fresh, _, _⟩ := within.cleared cleared
    refine AllForced.append ?_ ⟨fresh.forced_whole_push positive useful full, trivial⟩
    simpa [chunks] using first

end Within

/-! ## Many additions -/

theorem Within.allForced_run (within : buffer.Within maxLines maxBytes) (positive : 1 ≤ maxLines)
    (chunks : List Bytes) :
    AllForced maxLines maxBytes (buffer.run (chunks.map .add)).1
      (buffer.run (chunks.map .add)).2.chunks := by
  induction chunks generalizing buffer with
  | nil => trivial
  | cons chunk chunks ih =>
    have next := within.add chunk
    have first := (within.allForced_add positive chunk).follow (added (chunks.map .add))
    rw [← chunks_run] at first
    exact first.append (ih next.1)

theorem add_of_roomy (useful : chunk ≠ []) (fits : buffer.wouldOverflow chunk = false)
    (roomy : (buffer.push chunk).isFull = false) :
    buffer.add chunk = ([], buffer.push chunk) := by
  simp [add, flushIf, useful, fits, roomy]

/-- Nothing is cut as long as no limit is reached. -/
theorem cuts_run_eq_nil (buffer : LineBuffer) (chunks : List Bytes)
    (few : buffer.lineCount + (chunks.map Line.count).sum < buffer.maxLines)
    (short : buffer.byteCount + (chunks.map fun chunk ↦ (Line.terminate chunk).length).sum ≤
      buffer.maxBytes) : (buffer.run (chunks.map .add)).1 = [] := by
  induction chunks generalizing buffer with
  | nil => rfl
  | cons chunk chunks ih =>
    simp only [List.map_cons, List.sum_cons] at few short
    by_cases useful : chunk = []
    · subst useful
      exact ih buffer (by simpa using few) (by simpa using short)
    · have fits : buffer.wouldOverflow chunk = false := by
        simp only [wouldOverflow, decide_eq_false_iff_not]
        omega
      have roomy : (buffer.push chunk).isFull = false := by
        simp only [isFull, Bool.or_eq_false_iff, decide_eq_false_iff_not]
        simp only [push]
        omega
      have rest := ih (buffer.push chunk) (by simp only [push]; omega) (by simp only [push]; omega)
      simpa [run, call, add_of_roomy useful fits roomy] using rest

/-- Additions after any other calls of a new buffer. A batch that they cut is at the line limit,
though without its last chunk it was not, or is past the byte limit, or the next chunk would take it
past that limit. If no limit is reached, they cut nothing. -/
theorem forced_run (maxLines maxBytes : Nat) (positive : 1 ≤ maxLines) (earlier : List Call)
    (chunks : List Bytes) :
    let held := ((empty maxLines maxBytes).run earlier).2
    let (cuts, last) := held.run (chunks.map .add)
    cuts.flatMap Cut.chunks ++ last.chunks = held.chunks ++ added (chunks.map .add) ∧
    (∀ before cut after, cuts = before ++ cut :: after →
      (maxLines ≤ Line.count cut.lines ∨ maxBytes < cut.lines.length ∨
        ∃ next ∈ (after.flatMap Cut.chunks ++ last.chunks).head?,
          maxBytes < cut.lines.length + next.length) ∧
      (maxLines ≤ Line.count cut.lines →
        Line.count cut.chunks.dropLast.flatten < maxLines)) ∧
    (held.lineCount + (chunks.map Line.count).sum < maxLines →
      held.byteCount + (chunks.map fun chunk ↦ (Line.terminate chunk).length).sum ≤ maxBytes →
        cuts = []) := by
  intro held
  obtain ⟨within, -⟩ := run_induction (Within maxLines maxBytes) (fun _ ↦ True)
    (fun _ call within ↦ ⟨(within.call call).1, fun _ _ ↦ trivial⟩) (within_empty _ _) earlier
  have all := within.allForced_run positive chunks
  refine ⟨chunks_run held _, fun before cut after split ↦ ?_, fun few short ↦ ?_⟩
  · rw [split] at all
    exact ⟨all.of_split.reason, all.of_split.prompt⟩
  · exact cuts_run_eq_nil held chunks (within.maxLines_eq ▸ few) (within.maxBytes_eq ▸ short)

/-- One line is held after a flush. -/
def resumed : List Call :=
  [.add [120], .flush, .add [97]]

/-- The first chunk takes the held line to the line limit, the third does not fit behind the second,
and the last is too long for any batch. -/
def varied : List Bytes :=
  [[10, 98], [99, 99, 99, 99], [100, 100, 100], List.replicate 9 101]

theorem forced_run_varied :
    let held := ((empty 3 8).run resumed).2
    let (cuts, last) := held.run (varied.map .add)
    let full : Cut := { chunks := [[97, 10], [10, 98, 10]], lineCount := 3, byteCount := 5 }
    let tight : Cut := { chunks := [[99, 99, 99, 99, 10]], lineCount := 1, byteCount := 5 }
    cuts.take 2 = [full, tight] ∧ cuts.length = 4 ∧ 1 ≤ 3 ∧
      3 ≤ Line.count full.lines ∧ Line.count full.chunks.dropLast.flatten < 3 ∧
      (3 ≤ Line.count tight.lines ∨ 8 < tight.lines.length ∨
        ∃ next ∈ ((cuts.drop 2).flatMap Cut.chunks ++ last.chunks).head?,
          8 < tight.lines.length + next.length) ∧
      held.lineCount + Line.count [98] < 3 ∧
      held.byteCount + (Line.terminate [98]).length ≤ 8 ∧
      (held.run [.add [98]]).1 = [] := by
  obtain ⟨-, forced, -⟩ := forced_run 3 8 (by decide) resumed varied
  obtain ⟨-, -, calm⟩ := forced_run 3 8 (by decide) resumed [[98]]
  have first := forced [] _ _ rfl
  have second := forced [_] _ _ rfl
  exact ⟨by decide, by decide, by decide, by decide, first.2 (by decide), second.1, by decide,
    by decide, calm (by decide) (by decide)⟩

end LineDelivery.LineBuffer
