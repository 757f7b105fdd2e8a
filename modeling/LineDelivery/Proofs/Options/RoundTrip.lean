import LineDelivery.Options.Printer
import LineDelivery.Proofs.Options.Objects

/-!
# Options written and read again

What is written from options is a well-formed object that gives them back, and so is any array of
their numbers in order. An array may end early: the fields behind its end keep their defaults.
-/

namespace LineDelivery.Options

open LineDelivery.Json LineDelivery.Json.Grammar

/-! ### Writing -/

/-- A plain literal. -/
def literal (number : Nat) : Value :=
  .number { negative := false, whole := .ofNat number, fraction? := none, power? := none }

/-- The members that give one or more fields, without a blank. -/
def membersOf (options : Options) (field : Field) : List Field → Members
  | [] => .last [] (Spelled.ofText field.name) [] [] (literal (options.get field)) []
  | next :: others =>
    .more [] (Spelled.ofText field.name) [] [] (literal (options.get field)) []
      (options.membersOf next others)

def document (options : Options) : Document :=
  { before := [], value := .object (options.membersOf .batchSize Field.all.tail), after := [] }

theorem natural_literal (number : Nat) : (literal number).natural? = some number :=
  congrArg some (Whole.value_ofNat number)

theorem chars_ofText_name (field : Field) :
    (Spelled.ofText field.name).chars = '"' :: field.name.toList ++ ['"'] := by
  cases field <;> decide

theorem text_ofText (text : String) : (Spelled.ofText text).text = text := by
  have denoted (c : Char) : (Spelling.ofChar c).denoted = c := by
    rw [Spelling.ofChar]
    split <;> rfl
  simp [Spelled.ofText, Spelled.text, Function.comp_def, denoted]

theorem chars_membersOf (options : Options) (field : Field) (others : List Field) :
    (options.membersOf field others).chars =
      [','].intercalate ((field :: others).map options.member) := by
  have single (field : Field) : options.member field =
      (Spelled.ofText field.name).chars ++ ':' :: (literal (options.get field)).chars := by
    simp [member, chars_ofText_name, literal, Value.chars, Number.chars, Number.unsignedChars,
      Number.fractionChars, Number.powerChars, Whole.chars_ofNat]
  induction others generalizing field with
  | nil => simp [membersOf, Members.chars, gapChars, single]
  | cons next others ih =>
    simp [membersOf, Members.chars, gapChars, single, ih, List.intercalate_cons_cons]

theorem entries_membersOf (options : Options) (field : Field) (others : List Field) :
    (options.membersOf field others).entries =
      (field :: others).map fun field ↦ (field.name, literal (options.get field)) := by
  induction others generalizing field with
  | nil => simp [membersOf, Members.entries, text_ofText]
  | cons next others ih => simp [membersOf, Members.entries, text_ofText, ih]

theorem text_document (options : Options) : options.document.text = options.toText := by
  have chars := options.chars_membersOf .batchSize Field.all.tail
  simp only [document, Document.text, Document.chars, gapChars, List.map_nil, List.nil_append,
    List.append_nil, Value.chars, chars]
  rfl

theorem ofText_toText (options : Options) : ofText options.toText = .ok options := by
  have object : options.document.value.entries? =
      some (Field.all.map fun field ↦ (field.name, literal (options.get field))) :=
    congrArg some (options.entries_membersOf .batchSize Field.all.tail)
  have given (field : Field) :
      valuesOf field (Field.all.map fun field ↦ (field.name, literal (options.get field))) =
        [literal (options.get field)] := by
    cases field <;> rfl
  rw [← text_document, ofText_eq_ok_iff object]
  refine ⟨fun field ↦ ?_, fun field value mem ↦ ?_, fun field nothing ↦ ?_⟩
  · rw [given, Field.fits_cons]
    have fits := Field.number_eq_some.mpr ⟨natural_literal _, options.get_lt_range field⟩
    exact ⟨⟨_, fits⟩, rfl⟩
  · rw [given, List.mem_singleton] at mem
    rw [mem, natural_literal]
  · rw [given] at nothing
    exact absurd nothing (List.cons_ne_nil _ [])

/-! ### Arrays -/

namespace Draft

/-- The draft with some fields given as they stand in the options. -/
def copy (draft : Draft) (options : Options) (fields : List Field) : Draft :=
  fields.foldl (fun draft field ↦ draft.put field (options.get field)) draft

theorem get_copy (draft : Draft) (options : Options) (fields : List Field) (field : Field) :
    (draft.copy options fields).options.get field =
      if field ∈ fields then options.get field else draft.options.get field := by
  induction fields generalizing draft with
  | nil => rfl
  | cons first others ih =>
    refine (ih _).trans ?_
    by_cases later : field ∈ others
    · rw [if_pos later, if_pos (List.mem_cons_of_mem first later)]
    · rw [if_neg later]
      by_cases same : field = first
      · rw [if_pos (List.mem_cons.mpr (.inl same)), same]
        exact draft.options.get_set_self (options.get_lt_range first)
      · rw [if_neg (by simp [same, later])]
        exact draft.options.get_set_of_ne same _

end Draft

namespace Reader

theorem run_element {draft : Draft} {options : Options} {field : Field} {given : Value}
    (natural : given.natural? = some (options.get field)) (fields : List Field)
    (rest : List Token) :
    (element draft (field :: fields)).run (given.tokens ++ rest) =
      (nextElement (draft.put field (options.get field)) fields).run rest := by
  obtain ⟨token, others, begins, head, alone⟩ := natural_tokens given
  rw [begins, alone (by simp [natural]), List.singleton_append, run_cons, step, takeElement,
    takeValue, head, natural]
  simp only [if_pos (options.get_lt_range field)]
  rfl

/-- An array of numbers fills the first fields, and may end after any of them. -/
theorem run_elements {draft : Draft} {options : Options} {elements : Elements}
    {fields : List Field} (left : List Field)
    (naturals : elements.values.map Value.natural? = fields.map (some <| options.get ·)) :
    (element draft (fields ++ left)).run (elements.tokens ++ [.closeBracket]) =
      .ok (.finished (draft.copy options fields).options) := by
  cases elements with
  | last before value after =>
    obtain ⟨field, rfl, natural⟩ := List.map_eq_singleton_iff.mp naturals.symm
    rw [Elements.tokens, List.singleton_append, run_element natural.symm]
    rfl
  | more before value after others =>
    obtain ⟨field, more, rfl, natural, naturals⟩ := List.map_eq_cons_iff.mp naturals.symm
    rw [Elements.tokens, List.append_assoc, List.cons_append, run_element natural.symm]
    exact run_elements left naturals.symm

theorem run_firstElements (draft : Draft) (fields : List Field) (elements : Elements)
    (rest : List Token) :
    (firstElement draft fields).run (elements.tokens ++ rest) =
      (element draft fields).run (elements.tokens ++ rest) := by
  obtain ⟨token, others, begins, notEnd⟩ := elements_tokens_eq_cons elements
  simp [begins, run_cons, step, notEnd]

end Reader

/-- An array of numbers for the first fields is read as the options with these fields. -/
theorem ofText_array {document : Document} {values : List Value}
    (array : document.value.values? = some values) {options : Options} {fields left : List Field}
    (all : Field.all = fields ++ left)
    (naturals : values.map Value.natural? = fields.map (some <| options.get ·)) :
    ofText document.text = .ok (Draft.copy {} options fields).options := by
  rw [ofText, ofText_document, ofTokens]
  cases value : document.value with
  | emptyArray gap =>
    rw [value] at array
    cases array
    cases List.map_eq_nil_iff.mp naturals.symm
    rfl
  | array elements =>
    rw [value] at array
    cases array
    have first : Reader.start.run (Value.array elements).tokens =
        (Reader.firstElement {} Field.all).run (elements.tokens ++ [.closeBracket]) := by
      rw [Value.tokens, List.cons_append]
      rfl
    rw [first, Reader.run_firstElements, all, Reader.run_elements left naturals]
    rfl
  | _ => simp [value, Value.values?] at array

/-- Options come back from what is written of them, as an object or as an array, and an array that
ends early leaves the other fields at their defaults. -/
structure Survives (options : Options) : Prop where
  object : ofText options.toText = .ok options
  array : ∀ (document : Document) (values : List Value), document.value.values? = some values →
    values.map Value.natural? = Field.all.map (some <| options.get ·) →
    ofText document.text = .ok options
  shorter : ∀ (document : Document) (values : List Value) (count : Nat),
    document.value.values? = some values →
    values.map Value.natural? = (Field.all.take count).map (some <| options.get ·) →
    ∃ read, ofText document.text = .ok read ∧ ∀ field,
      read.get field =
        if field ∈ Field.all.take count then options.get field else ({} : Options).get field

theorem survives (options : Options) : Survives options where
  object := options.ofText_toText
  array := by
    intro document values array naturals
    rw [ofText_array array (List.append_nil Field.all).symm naturals]
    have same (field : Field) : (Draft.copy {} options Field.all).options.get field =
        options.get field := by
      rw [Draft.get_copy, if_pos field.mem_all]
    rw [ext_get same]
  shorter := by
    intro document values count array naturals
    have all := (List.take_append_drop count Field.all).symm
    exact ⟨_, ofText_array array all naturals, Draft.get_copy {} options _⟩

/-- Options that fail their check, with the largest numbers of both widths. -/
def atLimits : Options :=
  { batchSize := 0, maxBatchBytes := 18446744073709551615, maxRetries := 4294967295 }

/-- The first two numbers of these options. -/
def shortArray : Document :=
  { before := [.newline]
    value := .array
      (.more [.tab] (literal 0) []
      (.last [.space] (literal 18446744073709551615) []))
    after := [.space] }

theorem survives_atLimits :
    ofText atLimits.toText = .ok atLimits ∧
      shortArray.text = "\n[\t0, 18446744073709551615] " ∧
      ofText shortArray.text = .ok { batchSize := 0, maxBatchBytes := 18446744073709551615 } := by
  have survives := survives atLimits
  obtain ⟨read, taken, get⟩ := survives.shorter shortArray _ 2 rfl (by decide)
  refine ⟨survives.object, by decide, ?_⟩
  rw [taken]
  exact congrArg Except.ok <| ext_get fun field ↦ (get field).trans (by cases field <;> decide)

end LineDelivery.Options
