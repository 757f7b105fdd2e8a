import LineDelivery.Line

/-!
# Counting lines

Only the empty text has no line. Terminating a text does not change its count, and what stands behind
a terminated text is counted on its own.
-/

namespace LineDelivery.Line

variable {text first second : Bytes}

theorem count_pos (filled : text ≠ []) : 0 < count text := by
  unfold count
  split
  · next ended =>
    have terminated : endsInNewline text := by simpa [filled] using ended
    have last : newline ∈ text := List.mem_of_getLast? (by simpa [endsInNewline] using terminated)
    exact Nat.lt_add_right 0 (List.count_pos_iff.mpr last)
  · exact Nat.succ_pos _

theorem ne_nil_of_endsInNewline (ended : endsInNewline text) : text ≠ [] := by
  rintro rfl
  simp [endsInNewline] at ended

theorem terminate_ne_nil (filled : text ≠ []) : terminate text ≠ [] := by
  unfold terminate
  split <;> simp [filled]

theorem endsInNewline_terminate (filled : text ≠ []) : endsInNewline (terminate text) := by
  unfold terminate
  split
  · next ended => simpa [filled] using ended
  · simp [endsInNewline]

theorem endsInNewline_append (filled : second ≠ []) :
    endsInNewline (first ++ second) = endsInNewline second := by
  simp [endsInNewline, List.getLast?_append, List.getLast?_eq_some_getLast filled]

theorem count_of_endsInNewline (ended : endsInNewline text) : count text = text.count newline := by
  simp [count, ended]

@[simp]
theorem count_terminate (text : Bytes) : count (terminate text) = count text := by
  unfold terminate
  split
  · rfl
  · next unended =>
    have ended : endsInNewline (text ++ [newline]) := endsInNewline_append (List.cons_ne_nil _ _)
    rw [count_of_endsInNewline ended, List.count_append, count, if_neg unended]
    rfl

theorem count_append (ended : first = [] ∨ endsInNewline first) (second : Bytes) :
    count (first ++ second) = count first + count second := by
  rcases ended with rfl | ended
  · simp
  · by_cases empty : second = []
    · simp [empty]
    · rw [count_of_endsInNewline ended]
      simp [count, endsInNewline_append empty, empty, Nat.add_assoc]

end LineDelivery.Line
