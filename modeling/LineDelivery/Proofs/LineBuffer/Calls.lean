import LineDelivery.Proofs.LineBuffer.Contents

/-!
# Any use of a line buffer

A buffer takes any sequence of additions and flushes. Bytes are divided between chunks only, so the
batches one after the other, and then what is still held, are the chunks as they were added.
-/

namespace LineDelivery.LineBuffer

inductive Call where
  | add (chunk : Bytes)
  | flush
  deriving DecidableEq, Repr

/-- The chunk that goes into the buffer, terminated. -/
def Call.chunk? : Call → Option Bytes
  | add chunk => if chunk.isEmpty then none else some (Line.terminate chunk)
  | flush => none

/-- The chunks that calls put into a buffer. -/
def added (calls : List Call) : List Bytes :=
  calls.filterMap Call.chunk?

/-- The batches that a call cuts, in order, and the buffer after it. -/
def call (buffer : LineBuffer) : Call → List Cut × LineBuffer
  | .add chunk => buffer.add chunk
  | .flush => (buffer.flush.1.toList, buffer.flush.2)

/-- The batches that calls cut, in order, and the buffer after them. -/
def run (buffer : LineBuffer) : List Call → List Cut × LineBuffer
  | [] => ([], buffer)
  | call :: calls =>
    let (cuts, next) := buffer.call call
    let (more, last) := next.run calls
    (cuts ++ more, last)

variable {buffer : LineBuffer} {cut : Cut} {calls : List Call} {chunk : Bytes}

/-- What every call keeps up, calls keep up, and what holds of the batches of every call holds of
all batches. -/
theorem run_induction (holds : LineBuffer → Prop) (good : Cut → Prop)
    (step : ∀ buffer call, holds buffer →
      holds (buffer.call call).2 ∧ ∀ cut ∈ (buffer.call call).1, good cut)
    (start : holds buffer) (calls : List Call) :
    holds (buffer.run calls).2 ∧ ∀ cut ∈ (buffer.run calls).1, good cut := by
  induction calls generalizing buffer with
  | nil => exact ⟨start, by simp [run]⟩
  | cons call calls ih =>
    obtain ⟨next, cuts⟩ := step buffer call start
    obtain ⟨last, more⟩ := ih next
    exact ⟨last, List.forall_mem_append.mpr ⟨cuts, more⟩⟩

theorem chunks_call (buffer : LineBuffer) (call : Call) :
    (buffer.call call).1.flatMap Cut.chunks ++ (buffer.call call).2.chunks =
      buffer.chunks ++ call.chunk?.toList := by
  cases call with
  | add chunk =>
    by_cases empty : chunk = []
    · simp [LineBuffer.call, add, Call.chunk?, empty]
    · simpa [LineBuffer.call, Call.chunk?, empty] using chunks_add buffer empty
  | flush => simpa [LineBuffer.call, Call.chunk?] using chunks_flush buffer

theorem chunks_run (buffer : LineBuffer) (calls : List Call) :
    (buffer.run calls).1.flatMap Cut.chunks ++ (buffer.run calls).2.chunks =
      buffer.chunks ++ added calls := by
  induction calls generalizing buffer with
  | nil => simp [run, added]
  | cons call calls ih =>
    have first := buffer.chunks_call call
    have rest := ih (buffer.call call).2
    have all : added (call :: calls) = call.chunk?.toList ++ added calls := by
      simp only [added, List.filterMap_cons]
      cases call.chunk? <;> rfl
    simp only [run, List.flatMap_append, List.append_assoc]
    rw [rest, ← List.append_assoc, first, List.append_assoc, all]

theorem filled_of_mem_call {call : Call} (taken : cut ∈ (buffer.call call).1) :
    cut.chunks ≠ [] := by
  cases call with
  | add chunk => exact filled_of_mem_add taken
  | flush => exact filled_of_mem_flush taken

theorem filled_of_mem_run (taken : cut ∈ (buffer.run calls).1) : cut.chunks ≠ [] :=
  (run_induction (fun _ ↦ True) (fun cut ↦ cut.chunks ≠ [])
    (fun _ _ _ ↦ ⟨trivial, fun _ ↦ filled_of_mem_call⟩) trivial calls).2 cut taken

theorem ne_nil_of_mem_added (there : chunk ∈ added calls) : chunk ≠ [] := by
  obtain ⟨call, _, isChunk⟩ := List.mem_filterMap.mp there
  cases call with
  | add text =>
    obtain ⟨filled, rfl⟩ : text ≠ [] ∧ Line.terminate text = chunk := by
      simpa [Call.chunk?] using isChunk
    exact Line.terminate_ne_nil filled
  | flush => simp [Call.chunk?] at isChunk

/-- A batch of a new buffer is a run of chunks as they were added. -/
theorem isInfix_of_mem_run {maxLines maxBytes : Nat}
    (taken : cut ∈ ((empty maxLines maxBytes).run calls).1) : cut.chunks <:+: added calls := by
  have all := (empty maxLines maxBytes).chunks_run calls
  obtain ⟨before, after, split⟩ := List.append_of_mem taken
  refine ⟨before.flatMap Cut.chunks,
    after.flatMap Cut.chunks ++ ((empty maxLines maxBytes).run calls).2.chunks, ?_⟩
  simpa [split] using all

theorem flatten_flatMap_chunks (cuts : List Cut) :
    (cuts.flatMap Cut.chunks).flatten = cuts.flatMap Cut.lines := by
  rw [← List.flatMap_id, List.flatMap_assoc]
  simp only [List.flatMap_id]
  rfl

/-- Nothing is lost, and nothing is divided within a chunk or moved. -/
theorem lines_run (maxLines maxBytes : Nat) (calls : List Call) :
    let (cuts, last) := (empty maxLines maxBytes).run calls
    cuts.flatMap Cut.lines ++ last.lines = (added calls).flatten ∧
      cuts.flatMap Cut.chunks ++ last.chunks = added calls ∧
      ∀ cut ∈ cuts, cut.lines ≠ [] ∧ cut.chunks <:+: added calls := by
  have all := (empty maxLines maxBytes).chunks_run calls
  rw [chunks_empty, List.nil_append] at all
  refine ⟨?_, all, fun cut taken ↦ ?_⟩
  · rw [← flatten_flatMap_chunks, lines, ← List.flatten_append, all]
  · have within := isInfix_of_mem_run taken
    obtain ⟨chunk, there⟩ := List.exists_mem_of_ne_nil _ (filled_of_mem_run taken)
    refine ⟨fun none ↦ ?_, within⟩
    exact ne_nil_of_mem_added (within.subset there) (List.flatten_eq_nil_iff.mp none chunk there)

/-- The second chunk is too long for any batch, so it cuts the first one and then itself. -/
def oversized : List Call :=
  [.add [97], .add [], .add [98, 98, 10, 98, 98], .add [99, 10]]

theorem lines_run_oversized :
    ((empty 10 4).run oversized).1.map Cut.lines = [[97, 10], [98, 98, 10, 98, 98, 10]] ∧
      ((empty 10 4).run oversized).2.lines = [99, 10] ∧
      ∀ cut ∈ ((empty 10 4).run oversized).1,
        cut.lines ≠ [] ∧ cut.chunks <:+: [[97, 10], [98, 98, 10, 98, 98, 10], [99, 10]] :=
  ⟨by decide, by decide, (lines_run 10 4 oversized).2.2⟩

end LineDelivery.LineBuffer
