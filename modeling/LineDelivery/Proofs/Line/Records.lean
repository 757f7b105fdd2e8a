import LineDelivery.Proofs.Line.Count

/-!
# Records and their count

A text that is made of records has as many lines as there are records, whether or not the last one
is ended, as long as it is not empty. Where one text follows another their counts add up, but for
the line that the first leaves open and the second goes on with. No other function counts like this.
-/

namespace LineDelivery.Line

variable {text first second record : Bytes} {records : List Bytes}

/-- What goes on with an open line is not counted anew. -/
theorem count_append_of_open (filled : first ≠ []) (isOpen : ¬ endsInNewline first)
    (more : second ≠ []) : count (first ++ second) + 1 = count first + count second := by
  have before : count first = first.count newline + 1 := by simp [count, filled, isOpen]
  have behind : count (first ++ second) = first.count newline + count second := by
    simp [count, endsInNewline_append more, more, List.count_append, Nat.add_assoc]
  omega

theorem count_append_newline (filled : text ≠ []) (isOpen : ¬ endsInNewline text) :
    count (text ++ [newline]) = count text := by
  have border := count_append_of_open filled isOpen (List.cons_ne_nil newline [])
  have single : count [newline] = 1 := by decide
  omega

theorem count_eq_zero_iff : count text = 0 ↔ text = [] := by
  constructor
  · intro none
    by_cases filled : text = []
    · exact filled
    · exact absurd none (Nat.ne_zero_of_lt (count_pos filled))
  · intro empty
    rw [empty, count_nil]

/-! ## Texts made of records -/

/-- The text in which every record is ended. -/
def ofRecords (records : List Bytes) : Bytes :=
  records.flatMap (· ++ [newline])

theorem intercalate_append_newline (some : records ≠ []) :
    [newline].intercalate records ++ [newline] = ofRecords records := by
  induction records with
  | nil => exact absurd rfl some
  | cons record others ih =>
    cases others with
    | nil => simp [ofRecords]
    | cons other others =>
      have rest := ih (List.cons_ne_nil other others)
      rw [List.intercalate_cons_cons, List.append_assoc, List.append_assoc, rest]
      simp [ofRecords]

theorem count_ended (whole : newline ∉ record) : count (record ++ [newline]) = 1 := by
  have ended : endsInNewline (record ++ [newline]) := endsInNewline_append (List.cons_ne_nil _ _)
  rw [count_of_endsInNewline ended, List.count_append, List.count_eq_zero.mpr whole]
  rfl

theorem count_ofRecords (whole : ∀ record ∈ records, newline ∉ record) :
    count (ofRecords records) = records.length := by
  induction records with
  | nil => rfl
  | cons record others ih =>
    obtain ⟨first, rest⟩ := List.forall_mem_cons.mp whole
    have ended : endsInNewline (record ++ [newline]) := endsInNewline_append (List.cons_ne_nil _ _)
    calc
      count (ofRecords (record :: others)) =
          count (record ++ [newline]) + count (ofRecords others) := count_append (.inr ended) _
      _ = 1 + others.length := by rw [count_ended first, ih rest]
      _ = (record :: others).length := Nat.add_comm _ _

/-- The last record is the end of the text. -/
theorem intercalate_eq_append_getLast (some : records ≠ []) :
    ∃ front, [newline].intercalate records = front ++ records.getLast some := by
  induction records with
  | nil => exact absurd rfl some
  | cons record others ih =>
    cases others with
    | nil => exact ⟨[], by simp⟩
    | cons other others =>
      obtain ⟨front, split⟩ := ih (List.cons_ne_nil other others)
      refine ⟨record ++ [newline] ++ front, ?_⟩
      rw [List.intercalate_cons_cons, split, List.getLast_cons (List.cons_ne_nil other others)]
      simp

theorem not_endsInNewline (whole : newline ∉ record) : ¬ endsInNewline record := by
  intro ended
  exact whole (List.mem_of_getLast? (by simpa [endsInNewline] using ended))

/-- The last record need not be ended if it is not empty. -/
theorem count_intercalate (some : records ≠ []) (whole : ∀ record ∈ records, newline ∉ record)
    (filled : records.getLast some ≠ []) :
    count ([newline].intercalate records) = records.length := by
  obtain ⟨front, split⟩ := intercalate_eq_append_getLast some
  have isOpen : ¬ endsInNewline ([newline].intercalate records) := by
    rw [split, endsInNewline_append filled]
    exact not_endsInNewline (whole _ (List.getLast_mem some))
  have text : [newline].intercalate records ≠ [] := by
    rw [split]
    exact List.append_ne_nil_of_right_ne_nil front filled
  rw [← count_append_newline text isOpen, intercalate_append_newline some, count_ofRecords whole]

/-! ## The laws of counting -/

/-- A function that counts the records of a text. -/
structure CountsRecords (lines : Bytes → Nat) : Prop where
  append : ∀ first second, lines (first ++ second) =
    if first = [] ∨ endsInNewline first ∨ second = [] then lines first + lines second
    else lines first + lines second - 1
  append_newline : ∀ text, text ≠ [] → ¬ endsInNewline text →
    lines text = lines (text ++ [newline])
  eq_zero_iff : ∀ text, lines text = 0 ↔ text = []
  ended : ∀ records, records ≠ [] → (∀ record ∈ records, newline ∉ record) →
    lines ([newline].intercalate records ++ [newline]) = records.length
  unended : ∀ records, ∀ some : records ≠ [], (∀ record ∈ records, newline ∉ record) →
    records.getLast some ≠ [] → lines ([newline].intercalate records) = records.length

/-- A single byte is one line, be it the end of one or its beginning. -/
theorem CountsRecords.singleton {lines : Bytes → Nat} (counts : CountsRecords lines)
    (byte : UInt8) : lines [byte] = 1 := by
  by_cases isNewline : byte = newline
  · subst isNewline
    simpa using counts.ended [[]] (List.cons_ne_nil _ _) (by simp)
  · simpa using counts.unended [[byte]] (List.cons_ne_nil _ _) (by simpa using Ne.symm isNewline)
      (List.cons_ne_nil _ _)

theorem countsRecords_count : CountsRecords count where
  append first second := by
    split
    · next apart =>
      rcases apart with rfl | ended | rfl
      · exact count_append (.inl rfl) second
      · exact count_append (.inr ended) second
      · simp
    · next border =>
      simp only [not_or] at border
      have shared := count_append_of_open border.1 border.2.1 border.2.2
      omega
  append_newline _ filled isOpen := (count_append_newline filled isOpen).symm
  eq_zero_iff _ := count_eq_zero_iff
  ended records some whole := by rw [intercalate_append_newline some, count_ofRecords whole]
  unended _ some whole filled := count_intercalate some whole filled

/-- The laws leave one way to count, since they say what each byte adds to the text behind it. -/
theorem CountsRecords.eq {lines others : Bytes → Nat} (counts : CountsRecords lines)
    (same : CountsRecords others) : lines = others := by
  funext text
  induction text with
  | nil => rw [(counts.eq_zero_iff []).mpr rfl, (same.eq_zero_iff []).mpr rfl]
  | cons byte rest ih =>
    have split : byte :: rest = [byte] ++ rest := rfl
    rw [split, counts.append, same.append, counts.singleton, same.singleton, ih]

/-- Counting lines is counting records, and nothing else is. -/
theorem countsRecords_iff {lines : Bytes → Nat} : CountsRecords lines ↔ lines = count := by
  constructor
  · intro counts
    exact counts.eq countsRecords_count
  · rintro rfl
    exact countsRecords_count

/-- A blank line counts, and so does a last record that is not ended. -/
example : count ([newline].intercalate [[65], [], [66, 66]]) = 3 := by decide

end LineDelivery.Line
