import LineDelivery.Proofs.LineBuffer.Calls

/-!
# The limits of a line buffer

The counts that a buffer keeps are those of the bytes it holds, since what it holds is terminated
chunks. After every call it is empty or within both limits, so one chunk more takes a batch past a
limit by that chunk at most.
-/

namespace LineDelivery

namespace LineBuffer

variable {buffer room : LineBuffer} {chunk : Bytes} {before : List Cut}

/-! ## What an addition does -/

/-- All that is held, as one batch. -/
def whole (buffer : LineBuffer) : Cut :=
  { chunks := buffer.chunks, lineCount := buffer.lineCount, byteCount := buffer.byteCount }

theorem flush_of_filled (filled : buffer.isEmpty = false) :
    buffer.flush = (some buffer.whole, empty buffer.maxLines buffer.maxBytes) := by
  simp [flush, filled, whole]

/-- What is held stays if the chunk fits behind it, and is cut otherwise. -/
inductive Cleared (buffer : LineBuffer) (chunk : Bytes) : List Cut → LineBuffer → Prop
  | fits (roomy : buffer.wouldOverflow chunk = false) : Cleared buffer chunk [] buffer
  | idle (tight : buffer.wouldOverflow chunk) (free : buffer.isEmpty) :
      Cleared buffer chunk [] buffer
  | cut (tight : buffer.wouldOverflow chunk) (filled : buffer.isEmpty = false) :
      Cleared buffer chunk [buffer.whole] (empty buffer.maxLines buffer.maxBytes)

theorem cleared_flushIf (buffer : LineBuffer) (chunk : Bytes) :
    Cleared buffer chunk (buffer.flushIf (buffer.wouldOverflow chunk)).1.toList
      (buffer.flushIf (buffer.wouldOverflow chunk)).2 := by
  unfold flushIf
  split
  · next tight =>
    cases filled : buffer.isEmpty with
    | true => simpa [flush_of_isEmpty filled] using Cleared.idle tight filled
    | false => simpa [flush_of_filled filled] using Cleared.cut tight filled
  · next roomy => exact .fits (Bool.eq_false_iff.mpr roomy)

/-- A chunk goes behind what is left, and if that makes the buffer full, all of it is cut. -/
inductive Adding (buffer : LineBuffer) (chunk : Bytes) : List Cut × LineBuffer → Prop
  | ignored (useless : chunk = []) : Adding buffer chunk ([], buffer)
  | kept {before : List Cut} {room : LineBuffer} (useful : chunk ≠ [])
      (cleared : Cleared buffer chunk before room)
      (roomy : (room.push chunk).isFull = false) : Adding buffer chunk (before, room.push chunk)
  | cut {before : List Cut} {room : LineBuffer} (useful : chunk ≠ [])
      (cleared : Cleared buffer chunk before room) (full : (room.push chunk).isFull) :
      Adding buffer chunk (before ++ [(room.push chunk).whole], empty room.maxLines room.maxBytes)

theorem adding_add (buffer : LineBuffer) (chunk : Bytes) :
    Adding buffer chunk (buffer.add chunk) := by
  have cleared := cleared_flushIf buffer chunk
  unfold add
  split
  · next useless => exact .ignored (List.isEmpty_iff.mp useless)
  · next useful =>
    have useful : chunk ≠ [] := mt List.isEmpty_iff.mpr useful
    generalize buffer.flushIf (buffer.wouldOverflow chunk) = flushed at cleared ⊢
    dsimp only
    unfold flushIf
    split
    · next full =>
      have filled : (flushed.2.push chunk).isEmpty = false := rfl
      rw [flush_of_filled filled]
      exact .cut useful cleared full
    · next roomy =>
      simpa using Adding.kept useful cleared (Bool.eq_false_iff.mpr roomy)

/-! ## What is held -/

/-- The counts are true, and all that is held is terminated. -/
structure Counted (buffer : LineBuffer) : Prop where
  ended : ∀ chunk ∈ buffer.newestFirst, Line.endsInNewline chunk
  lineCount : buffer.lineCount = Line.count buffer.lines
  byteCount : buffer.byteCount = buffer.lines.length

@[simp]
theorem lines_empty (maxLines maxBytes : Nat) : (empty maxLines maxBytes).lines = [] := rfl

@[simp]
theorem lines_push (buffer : LineBuffer) (chunk : Bytes) :
    (buffer.push chunk).lines = buffer.lines ++ Line.terminate chunk := by
  simp [lines]

theorem Counted.lines (counted : buffer.Counted) :
    buffer.isEmpty ∧ buffer.lines = [] ∨
      buffer.isEmpty = false ∧ Line.endsInNewline buffer.lines := by
  unfold isEmpty LineBuffer.lines chunks
  cases held : buffer.newestFirst with
  | nil => simp
  | cons last older =>
    have ended := counted.ended last (by simp [held])
    have filled := Line.ne_nil_of_endsInNewline ended
    simpa [Line.endsInNewline_append filled] using ended

theorem counted_empty (maxLines maxBytes : Nat) : (empty maxLines maxBytes).Counted :=
  ⟨by simp [empty], rfl, rfl⟩

theorem Counted.push (counted : buffer.Counted) (useful : chunk ≠ []) :
    (buffer.push chunk).Counted where
  ended := List.forall_mem_cons.mpr ⟨Line.endsInNewline_terminate useful, counted.ended⟩
  lineCount := by
    rw [lines_push, Line.count_append (counted.lines.imp And.right And.right),
      Line.count_terminate, ← counted.lineCount]
    rfl
  byteCount := by
    rw [lines_push, List.length_append, ← counted.byteCount]
    rfl

/-- A buffer between two calls. -/
structure Within (maxLines maxBytes : Nat) (buffer : LineBuffer) : Prop extends Counted buffer where
  maxLines_eq : buffer.maxLines = maxLines
  maxBytes_eq : buffer.maxBytes = maxBytes
  below : buffer.isEmpty ∨ buffer.lineCount < maxLines ∧ buffer.byteCount ≤ maxBytes

/-- A batch was within the limits before its last chunk. -/
structure Cut.Within (maxLines maxBytes : Nat) (cut : Cut) : Prop where
  lineCount : cut.lineCount = Line.count cut.lines
  byteCount : cut.byteCount = cut.lines.length
  large : maxBytes < cut.lines.length → ∃ chunk, cut.chunks = [chunk]
  long : 0 < maxLines → ∃ front last, cut.chunks = front ++ [last] ∧
    Line.count cut.lines ≤ maxLines - 1 + Line.count last

variable {maxLines maxBytes : Nat}

theorem within_empty (maxLines maxBytes : Nat) :
    (empty maxLines maxBytes).Within maxLines maxBytes :=
  { counted_empty maxLines maxBytes with
    maxLines_eq := rfl
    maxBytes_eq := rfl
    below := .inl rfl }

namespace Within

/-- What is held between two calls can be cut as it is. -/
theorem whole (within : buffer.Within maxLines maxBytes) (filled : buffer.isEmpty = false) :
    buffer.whole.Within maxLines maxBytes := by
  obtain ⟨few, short⟩ := within.below.resolve_left (by simp [filled])
  have lines : buffer.whole.lines = buffer.lines := rfl
  constructor
  case lineCount => exact within.lineCount
  case byteCount => exact within.byteCount
  case large =>
    intro large
    rw [lines, ← within.byteCount] at large
    omega
  case long =>
    intro _
    have some : buffer.chunks ≠ [] := fun none ↦ by simp [chunks_eq_nil_iff.mp none] at filled
    refine ⟨_, _, (List.dropLast_concat_getLast some).symm, ?_⟩
    rw [lines, ← within.lineCount]
    omega

theorem cleared (within : buffer.Within maxLines maxBytes)
    (cleared : Cleared buffer chunk before room) :
    room.Within maxLines maxBytes ∧ (∀ cut ∈ before, cut.Within maxLines maxBytes) ∧
      (room.isEmpty ∨ room.wouldOverflow chunk = false) := by
  cases cleared with
  | fits roomy => exact ⟨within, by simp, .inr roomy⟩
  | idle tight free => exact ⟨within, by simp, .inl free⟩
  | cut tight filled =>
    rw [within.maxLines_eq, within.maxBytes_eq]
    exact ⟨within_empty _ _, by simpa using within.whole filled, .inl rfl⟩

/-- A chunk takes the buffer past a limit only by itself. -/
theorem whole_push (within : room.Within maxLines maxBytes) (useful : chunk ≠ [])
    (clear : room.isEmpty ∨ room.wouldOverflow chunk = false) :
    (room.push chunk).whole.Within maxLines maxBytes := by
  have counted := within.toCounted.push useful
  have lines : (room.push chunk).whole.lines = (room.push chunk).lines := rfl
  constructor
  case lineCount => exact counted.lineCount
  case byteCount => exact counted.byteCount
  case large =>
    intro large
    rcases clear with free | roomy
    · exact ⟨Line.terminate chunk, by simp [LineBuffer.whole, chunks_eq_nil_iff.mpr free]⟩
    · rw [wouldOverflow, within.maxBytes_eq, within.byteCount, decide_eq_false_iff_not] at roomy
      rw [lines, lines_push, List.length_append] at large
      omega
  case long =>
    intro positive
    refine ⟨room.chunks, Line.terminate chunk, chunks_push room chunk, ?_⟩
    rw [lines, ← counted.lineCount, Line.count_terminate]
    have few : room.lineCount ≤ maxLines - 1 := by
      rcases within.below with free | below
      · have none := within.toCounted.lines.resolve_right (by simp [free])
        simp [within.lineCount, none.2]
      · omega
    exact Nat.add_le_add_right few _

theorem push (within : room.Within maxLines maxBytes) (useful : chunk ≠ [])
    (roomy : (room.push chunk).isFull = false) : (room.push chunk).Within maxLines maxBytes :=
  { within.toCounted.push useful with
    maxLines_eq := within.maxLines_eq
    maxBytes_eq := within.maxBytes_eq
    below := by
      have maxLines_eq : (room.push chunk).maxLines = maxLines := within.maxLines_eq
      have maxBytes_eq : (room.push chunk).maxBytes = maxBytes := within.maxBytes_eq
      simp only [isFull, maxLines_eq, maxBytes_eq, Bool.or_eq_false_iff, decide_eq_false_iff_not]
        at roomy
      exact .inr ⟨Nat.lt_of_not_le roomy.1, Nat.le_of_not_lt roomy.2⟩ }

theorem add (within : buffer.Within maxLines maxBytes) (chunk : Bytes) :
    (buffer.add chunk).2.Within maxLines maxBytes ∧
      ∀ cut ∈ (buffer.add chunk).1, cut.Within maxLines maxBytes := by
  generalize buffer.add chunk = result, buffer.adding_add chunk = adding
  cases adding with
  | ignored useless => exact ⟨within, by simp⟩
  | kept useful cleared roomy =>
    obtain ⟨room, cuts, _⟩ := within.cleared cleared
    exact ⟨room.push useful roomy, cuts⟩
  | cut useful cleared full =>
    obtain ⟨room, cuts, clear⟩ := within.cleared cleared
    rw [room.maxLines_eq, room.maxBytes_eq]
    refine ⟨within_empty _ _, List.forall_mem_append.mpr ⟨cuts, ?_⟩⟩
    simpa using room.whole_push useful clear

theorem flush (within : buffer.Within maxLines maxBytes) :
    buffer.flush.2.Within maxLines maxBytes ∧
      ∀ cut ∈ buffer.flush.1.toList, cut.Within maxLines maxBytes := by
  cases filled : buffer.isEmpty with
  | true =>
    rw [flush_of_isEmpty filled]
    exact ⟨within, by simp⟩
  | false =>
    rw [flush_of_filled filled, within.maxLines_eq, within.maxBytes_eq]
    exact ⟨within_empty _ _, by simpa using within.whole filled⟩

theorem call (within : buffer.Within maxLines maxBytes) (call : Call) :
    (buffer.call call).2.Within maxLines maxBytes ∧
      ∀ cut ∈ (buffer.call call).1, cut.Within maxLines maxBytes := by
  cases call with
  | add chunk => exact within.add chunk
  | flush => exact within.flush

end Within

/-- What a new buffer holds after any calls: its counts are true, and if it holds anything, then
whole lines within both limits. A batch past the byte limit is a single chunk, and only the last
chunk of a batch takes it to the line limit. -/
theorem limits_run (maxLines maxBytes : Nat) (calls : List Call) :
    let (cuts, last) := (empty maxLines maxBytes).run calls
    (last.lineCount = Line.count last.lines ∧ last.byteCount = last.lines.length ∧
      (last.isEmpty ∧ last.lines = [] ∧ last.lineCount = 0 ∨
        last.isEmpty = false ∧ Line.endsInNewline last.lines ∧ 0 < last.lineCount ∧
          last.lineCount < maxLines ∧ last.byteCount ≤ maxBytes)) ∧
    ∀ cut ∈ cuts,
      cut.lineCount = Line.count cut.lines ∧ cut.byteCount = cut.lines.length ∧
      (maxBytes < cut.lines.length → ∃ chunk ∈ added calls, cut.chunks = [chunk]) ∧
      (1 ≤ maxLines → ∃ front, ∃ last ∈ added calls, cut.chunks = front ++ [last] ∧
        Line.count cut.lines ≤ maxLines - 1 + Line.count last) := by
  obtain ⟨last, cuts⟩ := run_induction (Within maxLines maxBytes) (Cut.Within maxLines maxBytes)
    (fun _ call within ↦ within.call call) (within_empty _ _) calls
  refine ⟨⟨last.lineCount, last.byteCount, ?_⟩, fun cut taken ↦
    ⟨(cuts cut taken).lineCount, (cuts cut taken).byteCount, ?_, ?_⟩⟩
  · rcases last.toCounted.lines with ⟨free, none⟩ | ⟨filled, ended⟩
    · exact .inl ⟨free, none, by simp [last.lineCount, none]⟩
    · have some := Line.count_pos (Line.ne_nil_of_endsInNewline ended)
      have below := last.below.resolve_left (by simp [filled])
      exact .inr ⟨filled, ended, last.lineCount ▸ some, below⟩
  · intro large
    obtain ⟨chunk, alone⟩ := (cuts cut taken).large large
    exact ⟨chunk, (isInfix_of_mem_run taken).subset (by simp [alone]), alone⟩
  · intro positive
    obtain ⟨front, last, split, few⟩ := (cuts cut taken).long positive
    exact ⟨front, last, (isInfix_of_mem_run taken).subset (by simp [split]), split, few⟩

/-- Two chunks of three lines, one of them blank, that are cut at the line limit; then a chunk that
alone is past the byte limit, and one that stays. -/
def crammed : List Call :=
  [.add [97], .add [10, 98], .add (List.replicate 9 99), .add [100]]

/-- The batch of the chunk that is too long. -/
def bulky : Cut :=
  { chunks := [List.replicate 9 99 ++ [10]], lineCount := 1, byteCount := 10 }

theorem limits_run_crammed :
    bulky ∈ ((empty 3 8).run crammed).1 ∧ 8 < bulky.lines.length ∧ 1 ≤ 3 ∧
      (∃ chunk ∈ added crammed, bulky.chunks = [chunk]) ∧
      (∃ front, ∃ last ∈ added crammed, bulky.chunks = front ++ [last] ∧
        Line.count bulky.lines ≤ 3 - 1 + Line.count last) ∧
      ((empty 3 8).run crammed).2.lines = [100, 10] := by
  have taken : bulky ∈ ((empty 3 8).run crammed).1 := by decide
  have large : 8 < bulky.lines.length := by decide
  obtain ⟨-, -, alone, few⟩ := (limits_run 3 8 crammed).2 bulky taken
  exact ⟨taken, large, by decide, alone large, few (by decide), by decide⟩

end LineBuffer

end LineDelivery
