import LineDelivery.LineBuffer
import LineDelivery.Proofs.Line.Count

/-!
# The chunks of a line buffer

Cutting batches moves chunks out of the buffer and changes nothing about them: what was cut followed
by what is still held is what was held before, with a new chunk at its end.
-/

namespace LineDelivery

namespace LineBuffer

/-- The bytes of a batch. -/
def Cut.lines (cut : Cut) : Bytes :=
  cut.chunks.flatten

/-- The bytes held. -/
def lines (buffer : LineBuffer) : Bytes :=
  buffer.chunks.flatten

variable {buffer : LineBuffer} {chunk : Bytes} {cut : Cut}

@[simp]
theorem chunks_empty (maxLines maxBytes : Nat) : (empty maxLines maxBytes).chunks = [] := rfl

@[simp]
theorem chunks_push (buffer : LineBuffer) (chunk : Bytes) :
    (buffer.push chunk).chunks = buffer.chunks ++ [Line.terminate chunk] := by
  simp [chunks, push]

theorem chunks_eq_nil_iff : buffer.chunks = [] ↔ buffer.isEmpty := by
  simp [chunks, isEmpty]

theorem chunks_flush (buffer : LineBuffer) :
    buffer.flush.1.toList.flatMap Cut.chunks ++ buffer.flush.2.chunks = buffer.chunks := by
  unfold flush
  split <;> simp

theorem isEmpty_flush (buffer : LineBuffer) : buffer.flush.2.isEmpty := by
  unfold flush
  split
  · assumption
  · rfl

theorem filled_of_mem_flush (taken : cut ∈ buffer.flush.1.toList) : cut.chunks ≠ [] := by
  unfold flush at taken
  split at taken
  · simp at taken
  · next filled =>
    obtain rfl : cut = _ := by simpa using taken
    exact fun none ↦ filled (chunks_eq_nil_iff.mp none)

theorem flush_of_isEmpty (empty : buffer.isEmpty) : buffer.flush = (none, buffer) := by
  simp [flush, empty]

theorem chunks_flushIf (condition : Bool) (buffer : LineBuffer) :
    (buffer.flushIf condition).1.toList.flatMap Cut.chunks ++ (buffer.flushIf condition).2.chunks =
      buffer.chunks := by
  unfold flushIf
  split
  · exact chunks_flush buffer
  · simp

theorem filled_of_mem_flushIf {condition : Bool}
    (taken : cut ∈ (buffer.flushIf condition).1.toList) : cut.chunks ≠ [] := by
  unfold flushIf at taken
  split at taken
  · exact filled_of_mem_flush taken
  · simp at taken

/-- What a chunk cuts, and what it leaves, is what was held and then the chunk. -/
theorem chunks_add (buffer : LineBuffer) (filled : chunk ≠ []) :
    (buffer.add chunk).1.flatMap Cut.chunks ++ (buffer.add chunk).2.chunks =
      buffer.chunks ++ [Line.terminate chunk] := by
  let room := (buffer.flushIf (buffer.wouldOverflow chunk)).2
  have before := chunks_flushIf (buffer.wouldOverflow chunk) buffer
  have after := chunks_flushIf (room.push chunk).isFull (room.push chunk)
  rw [chunks_push] at after
  simp only [add, List.isEmpty_eq_false_iff.mpr filled, Bool.false_eq_true, if_false,
    List.flatMap_append, List.append_assoc]
  rw [after, ← List.append_assoc, before]

theorem filled_of_mem_add (taken : cut ∈ (buffer.add chunk).1) : cut.chunks ≠ [] := by
  unfold add at taken
  split at taken
  · simp at taken
  · rcases List.mem_append.mp taken with before | after
    · exact filled_of_mem_flushIf before
    · exact filled_of_mem_flushIf after

end LineBuffer

end LineDelivery
