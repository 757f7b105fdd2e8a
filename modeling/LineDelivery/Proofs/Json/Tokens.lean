import Mathlib.Data.List.Basic
import LineDelivery.Proofs.Json.Grammar

/-!
# Reading tokens back

A tree gives its tokens back when its text is read, whatever stands behind the text, as long as it
does not go on with a number that ends the text.
-/

namespace LineDelivery.Json.Grammar

/-! ### Digits -/

/-- No run of digits goes on here. -/
def EndsDigits (rest : List Char) : Prop :=
  ∀ c ∈ rest.head?, c.isDigit = false

theorem isDigit_digitChar (digit : Digit) : (Nat.digitChar digit.val).isDigit = true := by
  rw [Nat.isDigit_digitChar]
  exact decide_eq_true digit.isLt

theorem isDigit_of_mem_digitChars {digits : List Digit} {c : Char} (mem : c ∈ digitChars digits) :
    c.isDigit = true := by
  obtain ⟨digit, -, rfl⟩ := List.mem_map.mp mem
  exact isDigit_digitChar digit

theorem takeDigits_digitChars (digits : List Digit) {rest : List Char} (ends : EndsDigits rest) :
    Numeral.takeDigits (digitChars digits ++ rest) = (digitChars digits, rest) := by
  have all : ∀ c ∈ digitChars digits, c.isDigit = true := fun c ↦ isDigit_of_mem_digitChars
  have stops : rest.takeWhile Char.isDigit = [] ∧ rest.dropWhile Char.isDigit = rest := by
    cases rest with
    | nil => simp
    | cons c tail => simp [ends c rfl]
  rw [Numeral.takeDigits, List.takeWhile_append_of_pos all, List.dropWhile_append_of_pos all,
    stops.1, stops.2, List.append_nil]

theorem digitsValue_digitChars (digits : List Digit) :
    Numeral.digitsValue (digitChars digits) =
      digits.foldl (fun value digit ↦ 10 * value + digit.val) 0 := by
  have digit_value : ∀ digit : Digit, (Nat.digitChar digit.val).toNat - '0'.toNat = digit.val := by
    decide
  rw [Numeral.digitsValue, Nat.ofDigitChars, digitChars, List.foldl_map]
  simp only [digit_value]

/-! ### Numbers -/

/-- No number goes on here. -/
def EndsNumber (rest : List Char) : Prop :=
  ∀ c ∈ rest.head?, c.isDigit = false ∧ c ≠ '.' ∧ c ≠ 'e' ∧ c ≠ 'E'

theorem EndsNumber.endsDigits {rest : List Char} (ends : EndsNumber rest) : EndsDigits rest :=
  fun c first ↦ (ends c first).1

theorem takeWhole_chars (whole : Whole) {rest : List Char} (ends : EndsDigits rest) :
    Numeral.takeWhole? (whole.chars ++ rest) = some (whole.chars, rest) := by
  have first_ne : ∀ first : Fin 9, Nat.digitChar first.succ.val ≠ '0' := by decide
  rw [Numeral.takeWhole?, Whole.chars, takeDigits_digitChars _ ends]
  cases whole with
  | zero => rfl
  | positive first others =>
    have := first_ne first
    simp only [Whole.digits, digitChars, List.map_cons]
    split <;> simp_all

theorem takeFraction_chars (number : Number) {rest : List Char} (digits : EndsDigits rest)
    (point : ∀ c ∈ rest.head?, c ≠ '.') :
    Numeral.takeFraction? (number.fractionChars ++ rest) =
      some (number.fraction?.map Digits.chars, rest) := by
  rw [Number.fractionChars]
  cases number.fraction? with
  | none =>
    rw [Numeral.takeFraction?.eq_def]
    cases rest with
    | nil => rfl
    | cons c tail =>
      have := point c rfl
      simp only [Option.elim_none, List.nil_append, Option.map_none]
      split <;> simp_all
  | some fraction =>
    simp only [Option.elim_some, List.cons_append, Option.map_some, Digits.chars]
    rw [Numeral.takeFraction?.eq_def]
    simp only [takeDigits_digitChars _ digits]
    rfl

theorem takeExponentDigits_chars (power : Power) {rest : List Char} (ends : EndsDigits rest) :
    Numeral.takeExponentDigits?
        ((power.sign?.map Sign.char).toList ++ (power.digits.chars ++ rest)) =
      some (some power.exponent, rest) := by
  have unsigned : ∀ digits : Digits, Numeral.takeSign (digits.chars ++ rest) =
      (false, digits.chars ++ rest) := by
    intro digits
    have := isDigit_digitChar digits.first
    rw [Digits.chars, digitChars, List.map_cons, List.cons_append, Numeral.takeSign.eq_def]
    split <;> simp_all
  have taken := takeDigits_digitChars (power.digits.first :: power.digits.others) ends
  rw [Numeral.takeExponentDigits?]
  cases sign : power.sign? with
  | none =>
    simp only [Option.map_none, Option.toList_none, List.nil_append, unsigned]
    rw [Digits.chars, taken]
    simp [digitChars, Power.exponent, sign, Digits.chars]
  | some which =>
    have signed : Numeral.takeSign (which.char :: (power.digits.chars ++ rest)) =
        (decide (which = .minus), power.digits.chars ++ rest) := by
      cases which <;> rfl
    simp only [Option.map_some, Option.toList_some, List.singleton_append, signed]
    rw [Digits.chars, taken]
    simp [digitChars, Power.exponent, sign, Digits.chars]

theorem takeExponent_chars (number : Number) {rest : List Char} (ends : EndsNumber rest) :
    Numeral.takeExponent? (number.powerChars ++ rest) =
      some (number.power?.map Power.exponent, rest) := by
  rw [Number.powerChars]
  cases number.power? with
  | none =>
    rw [Numeral.takeExponent?.eq_def]
    cases rest with
    | nil => rfl
    | cons c tail =>
      have := ends c rfl
      simp only [Option.elim_none, List.nil_append, Option.map_none]
      split <;> simp_all
  | some power =>
    have digits := takeExponentDigits_chars power ends.endsDigits
    simp only [Option.elim_some, Option.map_some, Power.chars, List.append_assoc,
      List.cons_append]
    cases power.capital <;> exact digits

theorem takeUnsigned_chars (number : Number) {rest : List Char} (ends : EndsNumber rest) :
    Numeral.takeUnsigned? number.negative (number.unsignedChars ++ rest) =
      some (number.numeral, rest) := by
  have power : ∀ c ∈ (number.powerChars ++ rest).head?, c.isDigit = false ∧ c ≠ '.' := by
    cases given : number.power? with
    | none =>
      intro c first
      have := ends c (by simpa [Number.powerChars, given] using first)
      exact ⟨this.1, this.2.1⟩
    | some power =>
      cases capital : power.capital <;> simp [Number.powerChars, given, Power.chars, capital]
  have fraction : EndsDigits (number.fractionChars ++ (number.powerChars ++ rest)) := by
    intro c first
    cases given : number.fraction? with
    | none => exact (power c (by simpa [Number.fractionChars, given] using first)).1
    | some digits =>
      simp only [Number.fractionChars, given, Option.elim_some, List.cons_append, List.head?_cons,
        Option.mem_def, Option.some.injEq] at first
      exact first ▸ rfl
  rw [Number.unsignedChars, List.append_assoc, List.append_assoc, Numeral.takeUnsigned?]
  simp only [takeWhole_chars _ fraction, Option.bind_eq_bind, Option.bind_some,
    takeFraction_chars _ (fun c first ↦ (power c first).1) fun c first ↦ (power c first).2,
    takeExponent_chars _ ends]
  rfl

theorem Number.unsignedChars_eq_cons (number : Number) :
    ∃ c rest, number.unsignedChars = c :: rest ∧ c.isDigit = true := by
  rw [Number.unsignedChars, Whole.chars]
  cases number.whole with
  | zero => exact ⟨'0', _, rfl, rfl⟩
  | positive first others => exact ⟨_, _, rfl, isDigit_digitChar first.succ⟩

theorem take_chars (number : Number) {rest : List Char} (ends : EndsNumber rest) :
    Numeral.take? (number.chars ++ rest) = some (number.numeral, rest) := by
  have taken := takeUnsigned_chars number ends
  rw [Number.chars]
  cases negative : number.negative with
  | true => simpa [Numeral.take?, negative] using taken
  | false =>
    obtain ⟨c, tail, begins, digit⟩ := number.unsignedChars_eq_cons
    rw [begins, negative] at taken
    rw [if_neg Bool.false_ne_true, begins, List.cons_append, Numeral.take?.eq_def]
    split
    · simp_all
    · exact taken

/-- What begins like a number is read as one. -/
theorem ofText_of_begins {c : Char} {rest : List Char} (begins : c = '-' ∨ c.isDigit = true)
    {numeral : Numeral} {tail : List Char}
    (taken : Numeral.take? (c :: rest) = some (numeral, tail)) :
    Token.ofText (c :: rest) = .number numeral :: Token.ofText tail := by
  have isBlank : Token.isBlank c = false := by
    obtain rfl | digit := begins
    · rfl
    · simp only [Token.isBlank, Bool.or_eq_false_iff, decide_eq_false_iff_not]
      refine ⟨⟨⟨?_, ?_⟩, ?_⟩, ?_⟩ <;> rintro rfl <;> simp at digit
  rw [Token.ofText.eq_def]
  split
  case h_12 =>
    rename_i same
    obtain ⟨rfl, rfl⟩ := List.cons.inj same
    rw [if_neg (by simp [isBlank])]
    split <;> simp_all
  all_goals simp_all

theorem ofText_number (number : Number) {rest : List Char} (ends : EndsNumber rest) :
    Token.ofText (number.chars ++ rest) = .number number.numeral :: Token.ofText rest := by
  have taken := take_chars number ends
  obtain ⟨c, tail, chars, begins⟩ :
      ∃ c tail, number.chars = c :: tail ∧ (c = '-' ∨ c.isDigit = true) := by
    rw [Number.chars]
    obtain ⟨c, tail, unsigned, digit⟩ := number.unsignedChars_eq_cons
    cases number.negative with
    | true => exact ⟨'-', _, rfl, .inl rfl⟩
    | false => exact ⟨c, tail, unsigned, .inr digit⟩
  rw [chars, List.cons_append] at taken ⊢
  exact ofText_of_begins begins taken

theorem natural_numeral (number : Number) : number.numeral.natural? = number.natural? := by
  have value : Numeral.digitsValue number.whole.chars = number.whole.value :=
    digitsValue_digitChars number.whole.digits
  simp [Number.numeral, Numeral.natural?, Number.natural?, value]

/-! ### Strings -/

theorem hexDigit_hexChar (capital : Bool) {digit : Nat} (small : digit < 16) :
    Quoted.hexDigit? (hexChar capital digit) = some digit := by
  have all : ∀ capital : Bool, ∀ digit : Fin 16,
      Quoted.hexDigit? (hexChar capital digit.val) = some digit.val := by decide
  exact all capital ⟨digit, small⟩

theorem take_unitChars (capital : Fin 4 → Bool) {unit : Nat} (small : unit < 65536)
    (text : List Char) :
    Quoted.take? (unitChars capital unit ++ text) =
      (Quoted.take? text).map fun (pieces, rest) ↦ (.codeUnit unit :: pieces, rest) := by
  have digits : ((unit / 4096 * 16 + unit / 256 % 16) * 16 + unit / 16 % 16) * 16 + unit % 16 =
      unit := by
    omega
  simp only [unitChars, List.cons_append, List.nil_append, Quoted.take?, Quoted.codeUnit?,
    hexDigit_hexChar _ (show unit / 4096 < 16 by omega), hexDigit_hexChar _ (Nat.mod_lt _ _),
    Nat.zero_lt_succ, Option.bind_eq_bind, Option.bind_some, digits]
  cases Quoted.take? text <;> rfl

namespace Spelling

/-- The pieces that a reader makes of it. -/
def pieces : Spelling → List Quoted.Piece
  | plain c _ => [.char c]
  | letter _ c _ => [.char c]
  | coded c _ _ =>
    if isBasic c then [.codeUnit c.toNat]
    else [.codeUnit (highSurrogate c), .codeUnit (lowSurrogate c)]

end Spelling

theorem toNat_lt (c : Char) : c.toNat < 0x110000 := by
  have valid : c.toNat.isValidChar := c.valid
  rw [Nat.isValidChar] at valid
  omega

theorem take_plain {c : Char} (allowed : 0x20 ≤ c.toNat ∧ c ≠ '"' ∧ c ≠ '\\') (text : List Char) :
    Quoted.take? (c :: text) =
      (Quoted.take? text).map fun (pieces, rest) ↦ (.char c :: pieces, rest) := by
  obtain ⟨printing, quote, backslash⟩ := allowed
  have control : Quoted.isControl c = false := decide_eq_false (by omega)
  rw [Quoted.take?.eq_def]
  split
  case h_5 same =>
    obtain ⟨rfl, rfl⟩ := List.cons.inj same
    rw [if_neg (by simp [control])]
    cases Quoted.take? text <;> rfl
  all_goals simp_all

theorem take_letter {sign c : Char} (listed : (sign, c) ∈ letterEscapes) (text : List Char) :
    Quoted.take? ('\\' :: sign :: text) =
      (Quoted.take? text).map fun (pieces, rest) ↦ (.char c :: pieces, rest) := by
  have known : ∀ escape ∈ letterEscapes,
      Quoted.escaped? escape.1 = some escape.2 ∧ escape.1 ≠ 'u' := by decide
  obtain ⟨escaped, notUnit⟩ := known _ listed
  rw [Quoted.take?.eq_def]
  split
  case h_4 same =>
    obtain ⟨rfl, rfl⟩ := List.cons.inj (List.cons.inj same).2
    simp only [escaped, Option.bind_eq_bind, Option.bind_some]
    cases Quoted.take? text <;> rfl
  case h_5 unescaped same =>
    obtain ⟨rfl, rfl⟩ := List.cons.inj same
    exact (unescaped _ _ rfl rfl).elim
  all_goals simp_all

theorem take_spelling (spelling : Spelling) (text : List Char) :
    Quoted.take? (spelling.chars ++ text) =
      (Quoted.take? text).map fun (pieces, rest) ↦ (spelling.pieces ++ pieces, rest) := by
  cases spelling with
  | plain c allowed => exact take_plain allowed text
  | letter sign c listed => exact take_letter listed text
  | coded c first second =>
    by_cases basic : isBasic c
    · simp only [Spelling.chars, Spelling.pieces, if_pos basic]
      exact take_unitChars first (of_decide_eq_true basic) text
    · have inRange := toNat_lt c
      have high : highSurrogate c < 0x10000 := by
        rw [highSurrogate]
        omega
      have low : lowSurrogate c < 0x10000 := by
        rw [lowSurrogate]
        omega
      simp only [Spelling.chars, Spelling.pieces, if_neg basic, List.append_assoc,
        take_unitChars first high, take_unitChars second low, Option.map_map]
      rfl

theorem take_spelled (spelled : Spelled) (rest : List Char) :
    Quoted.take? (spelled.charsBehindQuote ++ rest) =
      some (spelled.flatMap Spelling.pieces, rest) := by
  induction spelled with
  | nil => rfl
  | cons spelling others ih =>
    rw [Spelled.charsBehindQuote] at ih ⊢
    rw [List.flatMap_cons, List.append_assoc, List.append_assoc, take_spelling,
      ← List.append_assoc, ih]
    rfl

theorem chars_basicUnit {c : Char} (basic : isBasic c) (pieces : List Quoted.Piece) :
    Quoted.chars? (.codeUnit c.toNat :: pieces) = (Quoted.chars? pieces).map (c :: ·) := by
  have valid : c.toNat.isValidChar := c.valid
  have small : c.toNat < 0x10000 := of_decide_eq_true basic
  rw [Nat.isValidChar] at valid
  have high : Quoted.isHighSurrogate c.toNat = false := by
    simp only [Quoted.isHighSurrogate, Bool.and_eq_false_iff, decide_eq_false_iff_not]
    omega
  have low : Quoted.isLowSurrogate c.toNat = false := by
    simp only [Quoted.isLowSurrogate, Bool.and_eq_false_iff, decide_eq_false_iff_not]
    omega
  cases pieces with
  | nil => simp [Quoted.chars?, high, low, Char.ofNat_toNat]
  | cons piece rest => cases piece <;> simp [Quoted.chars?, high, low, Char.ofNat_toNat]

theorem chars_surrogates {c : Char} (basic : ¬isBasic c) (pieces : List Quoted.Piece) :
    Quoted.chars? (.codeUnit (highSurrogate c) :: .codeUnit (lowSurrogate c) :: pieces) =
      (Quoted.chars? pieces).map (c :: ·) := by
  have inRange := toNat_lt c
  have large : ¬c.toNat < 0x10000 := fun small ↦ basic (decide_eq_true small)
  have highRange : 0xD800 ≤ highSurrogate c ∧ highSurrogate c < 0xDC00 := by
    rw [highSurrogate]
    omega
  have lowRange : 0xDC00 ≤ lowSurrogate c ∧ lowSurrogate c < 0xE000 := by
    rw [lowSurrogate]
    omega
  have high : Quoted.isHighSurrogate (highSurrogate c) = true := by
    simp [Quoted.isHighSurrogate, highRange]
  have low : Quoted.isLowSurrogate (lowSurrogate c) = true := by
    simp [Quoted.isLowSurrogate, lowRange]
  have joined : Quoted.joinSurrogates (highSurrogate c) (lowSurrogate c) = c := by
    have parts : 0x10000 + (highSurrogate c - 0xD800) * 0x400 + (lowSurrogate c - 0xDC00) =
        c.toNat := by
      rw [highSurrogate, lowSurrogate]
      omega
    rw [Quoted.joinSurrogates, parts, Char.ofNat_toNat]
  rw [Quoted.chars?, if_pos high, if_pos low, joined]

theorem chars_spelling (spelling : Spelling) (pieces : List Quoted.Piece) :
    Quoted.chars? (spelling.pieces ++ pieces) =
      (Quoted.chars? pieces).map (spelling.denoted :: ·) := by
  cases spelling with
  | plain c allowed => rfl
  | letter sign c listed => rfl
  | coded c first second =>
    by_cases basic : isBasic c
    · rw [Spelling.pieces, if_pos basic]
      exact chars_basicUnit basic pieces
    · rw [Spelling.pieces, if_neg basic]
      exact chars_surrogates basic pieces

theorem text_spelled (spelled : Spelled) :
    Quoted.text? (spelled.flatMap Spelling.pieces) = some spelled.text := by
  have chars : Quoted.chars? (spelled.flatMap Spelling.pieces) =
      some (spelled.map Spelling.denoted) := by
    induction spelled with
    | nil => rfl
    | cons spelling others ih =>
      rw [List.flatMap_cons, chars_spelling, ih]
      rfl
  rw [Quoted.text?, chars]
  rfl

theorem ofText_spelled (spelled : Spelled) (rest : List Char) :
    Token.ofText (spelled.chars ++ rest) = .text (some spelled.text) :: Token.ofText rest := by
  have taken := take_spelled spelled rest
  rw [Spelled.chars, List.cons_append, Token.ofText]
  split
  · simp_all
  · simp_all [text_spelled]

/-! ### Values -/

theorem ofText_gap (gap : Gap) (rest : List Char) :
    Token.ofText (gapChars gap ++ rest) = Token.ofText rest := by
  have blank : ∀ (blank : Blank) (rest : List Char),
      Token.ofText (blank.char :: rest) = Token.ofText rest := by
    intro blank rest
    cases blank <;> simp [Blank.char, Token.ofText, Token.isBlank]
  induction gap with
  | nil => rfl
  | cons first others ih => exact (blank first _).trans ih

theorem endsNumber_gap (gap : Gap) {rest : List Char} (ends : EndsNumber rest) :
    EndsNumber (gapChars gap ++ rest) := by
  cases gap with
  | nil => exact ends
  | cons first others =>
    rintro c ⟨⟩
    cases first <;> decide

theorem endsNumber_closing {c : Char} (closing : c ∈ [',', ']', '\x7d']) (rest : List Char) :
    EndsNumber (c :: rest) := by
  simp only [List.mem_cons, List.not_mem_nil, or_false] at closing
  rintro _ ⟨⟩
  obtain rfl | rfl | rfl := closing <;> decide

mutual

theorem ofText_value (value : Value) {rest : List Char} (ends : EndsNumber rest) :
    Token.ofText (value.chars ++ rest) = value.tokens ++ Token.ofText rest := by
  cases value with
  | null => simp [Value.chars, Value.tokens, Token.ofText]
  | boolean truth => cases truth <;> simp [Value.chars, Value.tokens, Token.ofText]
  | number number => simp [Value.chars, Value.tokens, ofText_number number ends]
  | text spelled => simp [Value.chars, Value.tokens, ofText_spelled]
  | emptyArray gap => simp [Value.chars, Value.tokens, Token.ofText, ofText_gap]
  | array elements =>
    have inner := ofText_elements elements (endsNumber_closing (c := ']') (by decide) rest)
    simp [Value.chars, Value.tokens, Token.ofText, inner]
  | emptyObject gap => simp [Value.chars, Value.tokens, Token.ofText, ofText_gap]
  | object members =>
    have inner := ofText_members members (endsNumber_closing (c := '\x7d') (by decide) rest)
    simp [Value.chars, Value.tokens, Token.ofText, inner]

theorem ofText_elements (elements : Elements) {rest : List Char} (ends : EndsNumber rest) :
    Token.ofText (elements.chars ++ rest) = elements.tokens ++ Token.ofText rest := by
  cases elements with
  | last before value after =>
    have first := ofText_value value (endsNumber_gap after ends)
    simp [Elements.chars, Elements.tokens, ofText_gap, first]
  | more before value after others =>
    have comma := endsNumber_closing (c := ',') (by decide) (others.chars ++ rest)
    have first := ofText_value value (endsNumber_gap after comma)
    simp [Elements.chars, Elements.tokens, ofText_gap, first, Token.ofText,
      ofText_elements others ends]

theorem ofText_members (members : Members) {rest : List Char} (ends : EndsNumber rest) :
    Token.ofText (members.chars ++ rest) = members.tokens ++ Token.ofText rest := by
  cases members with
  | last beforeKey key afterKey before value after =>
    have first := ofText_value value (endsNumber_gap after ends)
    simp [Members.chars, Members.tokens, ofText_gap, ofText_spelled, first, Token.ofText]
  | more beforeKey key afterKey before value after others =>
    have comma := endsNumber_closing (c := ',') (by decide) (others.chars ++ rest)
    have first := ofText_value value (endsNumber_gap after comma)
    simp [Members.chars, Members.tokens, ofText_gap, ofText_spelled, first, Token.ofText,
      ofText_members others ends]

end

/-- Every well-formed text is read as the tokens of its tree. -/
theorem ofText_document (document : Document) :
    Token.ofText document.text.toList = document.value.tokens := by
  have ends : EndsNumber [] := by
    rintro c ⟨⟩
  have inner := ofText_value document.value (endsNumber_gap document.after ends)
  have blank := ofText_gap document.after []
  simp_all [Document.text, Document.chars, ofText_gap, Token.ofText]

end LineDelivery.Json.Grammar
