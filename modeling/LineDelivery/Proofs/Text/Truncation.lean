import LineDelivery.Line
import LineDelivery.Text.Truncate

/-!
# Truncation at character boundaries

What is left of a text that is too long is the longest beginning that fits. It can be found among
the octets as well: from the limit one steps back until the octet there does not go on with a
character, at the latest at the first one, and the octets before it are those of whole characters.
-/

namespace LineDelivery.Text

variable {room offset : Nat} {c : Char} {chars front back : List Char}

/-! ## Characters as octets -/

def encode (chars : List Char) : Bytes :=
  chars.flatMap String.utf8EncodeChar

def octets (value : String) : Bytes :=
  value.toByteArray.data.toList

@[simp]
theorem encode_append : encode (front ++ back) = encode front ++ encode back := by
  simp [encode]

@[simp]
theorem encode_cons : encode (c :: chars) = String.utf8EncodeChar c ++ encode chars := rfl

@[simp]
theorem octets_ofList : octets (String.ofList chars) = encode chars := by
  simp [octets, encode, List.utf8Encode]

@[simp]
theorem utf8ByteSize_ofList : (String.ofList chars).utf8ByteSize = (encode chars).length := by
  rw [← String.size_toByteArray, String.toByteArray_ofList]
  simp [encode, List.utf8Encode]

/-- Whether an octet goes on with a character instead of beginning one. -/
def isContinuation (octet : UInt8) : Bool :=
  0x80 ≤ octet && octet < 0xC0

theorem isContinuation_ofNat {n : Nat} (small : n < 256) :
    isContinuation (UInt8.ofNat n) ↔ 128 ≤ n ∧ n < 192 := by
  simp [isContinuation, UInt8.le_iff_toNat_le, UInt8.lt_iff_toNat_lt, Nat.mod_eq_of_lt small]

theorem isContinuation_low (n : Nat) : isContinuation (UInt8.ofNat (n % 64 + 128)) :=
  (isContinuation_ofNat (by omega)).mpr (by omega)

theorem not_isContinuation_lead {n : Nat} (small : n < 256) (outside : n < 128 ∨ 192 ≤ n) :
    ¬ isContinuation (UInt8.ofNat n) := by
  rw [isContinuation_ofNat small]
  omega

theorem utf8EncodeChar_eq_cons (c : Char) : ∃ lead more, String.utf8EncodeChar c = lead :: more ∧
    ¬ isContinuation lead ∧ ∀ octet ∈ more, isContinuation octet := by
  fun_cases String.utf8EncodeChar c
  all_goals
    refine ⟨_, _, rfl, not_isContinuation_lead (by omega) (by omega), ?_⟩
    simp only [List.forall_mem_cons, isContinuation_low, true_and, List.not_mem_nil,
      false_implies, implies_true]

/-! ## Boundaries -/

def isBoundary (octets : Bytes) (position : Nat) : Bool :=
  position == 0 ||
    match octets[position]? with
    | none => position == octets.length
    | some octet => !isContinuation octet

/-- The boundary that is reached by steps back, unless there is none down to the beginning. -/
def boundaryBefore? (octets : Bytes) : Nat → Option Nat
  | 0 => if isBoundary octets 0 then some 0 else none
  | position + 1 =>
    if isBoundary octets (position + 1) then some (position + 1)
    else boundaryBefore? octets position

/-- The text before a position, unless it ends inside a character. -/
def slice? (octets : Bytes) (position : Nat) : Option String :=
  if isBoundary octets position then String.fromUTF8? (octets.take position).toByteArray else none

theorem isBoundary_encode (front back : List Char) :
    isBoundary (encode (front ++ back)) (encode front).length := by
  cases back with
  | nil => simp [isBoundary]
  | cons c rest =>
    obtain ⟨lead, more, split, isLead, -⟩ := utf8EncodeChar_eq_cons c
    simp [isBoundary, split, isLead]

theorem not_isBoundary_encode (inside : offset + 1 < c.utf8Size) :
    ¬ isBoundary (encode (front ++ c :: back)) ((encode front).length + (offset + 1)) := by
  obtain ⟨lead, more, split, -, areMore⟩ := utf8EncodeChar_eq_cons c
  have size : more.length + 1 = c.utf8Size := by
    rw [← String.length_utf8EncodeChar, split, List.length_cons]
  have within : offset < more.length := by omega
  have there : (encode (front ++ c :: back))[(encode front).length + (offset + 1)]? =
      some more[offset] := by
    rw [encode_append, encode_cons, split, List.cons_append,
      List.getElem?_append_right (Nat.le_add_right _ _), Nat.add_sub_cancel_left,
      List.getElem?_cons_succ, List.getElem?_append_left within, List.getElem?_eq_getElem within]
  simp [isBoundary, there, areMore, -encode_append, -encode_cons]

/-- The steps back end before the character that holds the limit. -/
theorem boundaryBefore?_encode (front back : List Char) (inside : offset < c.utf8Size) :
    boundaryBefore? (encode (front ++ c :: back)) ((encode front).length + offset) =
      some (encode front).length := by
  induction offset with
  | zero =>
    have boundary := isBoundary_encode front (c :: back)
    rw [Nat.add_zero]
    cases before : (encode front).length with
    | zero => simp [boundaryBefore?, isBoundary]
    | succ position => rw [boundaryBefore?, if_pos (before ▸ boundary)]
  | succ offset ih =>
    rw [← Nat.add_assoc, boundaryBefore?, Nat.add_assoc, if_neg (not_isBoundary_encode inside),
      ih (Nat.lt_of_succ_lt inside)]

theorem slice?_encode (front back : List Char) :
    slice? (encode (front ++ back)) (encode front).length = some (String.ofList front) := by
  have octets : ((encode (front ++ back)).take (encode front).length).toByteArray =
      (String.ofList front).toByteArray := by
    simp [encode, List.utf8Encode]
  rw [slice?, if_pos (isBoundary_encode front back), octets, String.fromUTF8?,
    dif_pos (String.ofList front).isValidUTF8]
  rfl

/-! ## The longest beginning -/

theorem takeBytes_isPrefix (room : Nat) (chars : List Char) : takeBytes room chars <+: chars := by
  induction chars generalizing room with
  | nil => simp
  | cons c rest ih =>
    rw [takeBytes]
    split
    · exact (List.prefix_cons_inj c).mpr (ih _)
    · exact List.nil_prefix

theorem length_encode_takeBytes_le (room : Nat) (chars : List Char) :
    (encode (takeBytes room chars)).length ≤ room := by
  induction chars generalizing room with
  | nil => simp [encode]
  | cons c rest ih =>
    rw [takeBytes]
    split
    · next fits =>
      have behind := ih (room - c.utf8Size)
      rw [encode_cons, List.length_append, String.length_utf8EncodeChar]
      omega
    · exact Nat.zero_le room

/-- Whatever beginning fits is part of what is taken. -/
theorem isPrefix_takeBytes (back : List Char) (fits : (encode front).length ≤ room) :
    front <+: takeBytes room (front ++ back) := by
  induction front generalizing room with
  | nil => exact List.nil_prefix
  | cons c rest ih =>
    rw [encode_cons, List.length_append, String.length_utf8EncodeChar] at fits
    rw [List.cons_append, takeBytes, if_pos (by omega)]
    exact (List.prefix_cons_inj c).mpr (ih (by omega))

/-- What is left out begins with a character that does not fit any more. -/
theorem lt_of_takeBytes (next : chars = takeBytes room chars ++ c :: back) :
    room < (encode (takeBytes room chars)).length + c.utf8Size := by
  rw [← Nat.not_le]
  intro fits
  have roomy : (encode (takeBytes room chars ++ [c])).length ≤ room := by simpa [encode] using fits
  have more : takeBytes room chars ++ [c] <+: takeBytes room chars := by
    have longer := isPrefix_takeBytes back roomy
    rwa [List.append_assoc, List.singleton_append, ← next] at longer
  exact absurd more.length_le (by simp)

/-- What is kept of a text: the longest of its beginnings that fit, and nearly all that may fit. -/
structure LongestFit (value : String) (maxBytes : Nat) (kept : String) : Prop where
  beginning : ∃ rest, value = kept ++ rest
  longest : ∀ other rest, value = other ++ rest → other.utf8ByteSize ≤ maxBytes →
    ∃ more, kept = other ++ more
  fits : kept.utf8ByteSize ≤ maxBytes
  near : maxBytes - 3 ≤ kept.utf8ByteSize

/-- A text that is too long leaves out a character, and no character has more than four octets. -/
theorem exists_left_out (tooLong : room < (encode chars).length) :
    ∃ c rest, chars = takeBytes room chars ++ c :: rest := by
  obtain ⟨rest, split⟩ := takeBytes_isPrefix room chars
  cases rest with
  | nil =>
    have fits := length_encode_takeBytes_le room chars
    rw [List.append_nil] at split
    rw [split] at fits
    omega
  | cons c rest => exact ⟨c, rest, split.symm⟩

theorem longestFit_takeBytes (tooLong : room < (encode chars).length) :
    LongestFit (String.ofList chars) room (String.ofList (takeBytes room chars)) where
  beginning := by
    obtain ⟨rest, split⟩ := takeBytes_isPrefix room chars
    exact ⟨String.ofList rest, by rw [← String.ofList_append, split]⟩
  longest other rest split fits := by
    obtain ⟨front, rfl⟩ := other.exists_eq_ofList
    obtain ⟨back, rfl⟩ := rest.exists_eq_ofList
    rw [← String.ofList_append, String.ofList_inj] at split
    rw [utf8ByteSize_ofList] at fits
    obtain ⟨more, kept⟩ := isPrefix_takeBytes back fits
    exact ⟨String.ofList more, by rw [split, ← kept, String.ofList_append]⟩
  fits := by
    rw [utf8ByteSize_ofList]
    exact length_encode_takeBytes_le room chars
  near := by
    obtain ⟨c, rest, next⟩ := exists_left_out tooLong
    have beyond := lt_of_takeBytes next
    have small := c.utf8Size_le_four
    rw [utf8ByteSize_ofList]
    omega

/-! ## The cut -/

theorem boundaryBefore?_takeBytes (tooLong : room < (encode chars).length) :
    boundaryBefore? (encode chars) room = some (encode (takeBytes room chars)).length := by
  obtain ⟨c, rest, next⟩ := exists_left_out tooLong
  have beyond := lt_of_takeBytes next
  obtain ⟨offset, limit⟩ := Nat.exists_eq_add_of_le (length_encode_takeBytes_le room chars)
  have inside : offset < c.utf8Size := by omega
  have reached := boundaryBefore?_encode (takeBytes room chars) rest inside
  rwa [← next, ← limit] at reached

theorem slice?_takeBytes : slice? (encode chars) (encode (takeBytes room chars)).length =
    some (String.ofList (takeBytes room chars)) := by
  obtain ⟨rest, split⟩ := takeBytes_isPrefix room chars
  have sliced := slice?_encode (takeBytes room chars) rest
  rwa [split] at sliced

/-- The cut as it is found by steps back; without a result where a step leaves the text or the slice
ends inside a character. -/
def truncateAtBoundary? (value : String) (maxBytes : Nat) : Option String :=
  if value.utf8ByteSize ≤ maxBytes then some value
  else do
    let cut ← boundaryBefore? (octets value) maxBytes
    let kept ← slice? (octets value) cut
    return kept ++ truncationMark

structure CutsAtBoundary (value : String) (maxBytes : Nat) (result : String) : Prop where
  whole : value.utf8ByteSize ≤ maxBytes → result = value
  cut : maxBytes < value.utf8ByteSize →
    ∃ kept, LongestFit value maxBytes kept ∧ result = kept ++ "...(truncated)"
  found : truncateAtBoundary? value maxBytes = some result

theorem cutsAtBoundary_truncate (value : String) (maxBytes : Nat) :
    CutsAtBoundary value maxBytes (truncate value maxBytes) := by
  obtain ⟨chars, rfl⟩ := value.exists_eq_ofList
  constructor
  case whole =>
    intro fits
    rw [truncate, if_pos fits]
  case cut =>
    intro tooLong
    refine ⟨String.ofList (takeBytes maxBytes chars), longestFit_takeBytes ?_, ?_⟩
    · rwa [← utf8ByteSize_ofList]
    · rw [truncate, if_neg (Nat.not_le.mpr tooLong), String.toList_ofList]
      rfl
  case found =>
    rw [truncateAtBoundary?, truncate]
    split
    · rfl
    · next tooLong =>
      rw [utf8ByteSize_ofList, Nat.not_le] at tooLong
      rw [octets_ofList, boundaryBefore?_takeBytes tooLong, Option.bind_eq_bind, Option.bind_some,
        slice?_takeBytes, String.toList_ofList]
      rfl

/-- The limit falls inside the second character. -/
example : truncate "héllo" 2 = "h...(truncated)" := by decide

end LineDelivery.Text
