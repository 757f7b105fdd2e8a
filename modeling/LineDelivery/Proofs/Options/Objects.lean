import LineDelivery.Proofs.Options.Fields
import LineDelivery.Proofs.Options.Skipping

/-!
# Options from an object

An object is fit for options if no field is named twice and every field that is named has a plain
natural number within its range. The options are then the default ones with the fields that are
named set to their numbers, in whatever order and among whatever other members they stand.
-/

namespace LineDelivery.Options

open LineDelivery.Json LineDelivery.Json.Grammar

namespace Reader

/-- A value begins with its number if it has one, and then this is all of it. -/
theorem natural_tokens (value : Value) :
    ∃ token rest, value.tokens = token :: rest ∧ natural? token = value.natural? ∧
      (value.natural?.isSome → rest = []) := by
  cases value with
  | number literal =>
    exact ⟨.number literal.numeral, [], rfl, natural_numeral literal, fun _ ↦ rfl⟩
  | _ => exact ⟨_, _, rfl, rfl, nofun⟩

end Reader

/-- The number that a value gives to a field: a plain literal within the field's range. -/
def Field.number? (field : Field) (value : Value) : Option Nat :=
  value.natural?.filter (· < field.range)

namespace Draft

def put (draft : Draft) (field : Field) (number : Nat) : Draft :=
  { options := draft.options.set field number, given := field :: draft.given }

/-- The draft with one more member: a known field is given only once, and others change nothing. -/
def add? (draft : Draft) (entry : Entry) : Option Draft :=
  match Field.ofName? entry.1 with
  | none => some draft
  | some field =>
    if draft.given.contains field then none else (field.number? entry.2).map (draft.put field)

end Draft

namespace Reader

theorem toOption_run_value (draft : Draft) (field : Field) (given : Value) (rest : List Token) :
    ((value draft field).run (given.tokens ++ rest)).toOption =
      ((field.number? given).map (draft.put field)).bind fun draft ↦
        ((nextMember draft).run rest).toOption := by
  obtain ⟨token, others, begins, natural, alone⟩ := natural_tokens given
  rw [begins, List.cons_append, run_cons, step, takeValue, natural, Field.number?]
  cases plain : given.natural? with
  | none => rfl
  | some number =>
    rw [alone (by simp [plain])]
    by_cases fits : number < field.range
    · simp only [if_pos fits, Option.filter_some, decide_eq_true fits]
      rfl
    · simp only [if_neg fits, Option.filter_some, decide_eq_false fits]
      rfl

theorem toOption_run_entry (draft : Draft) (entry : Entry) (rest : List Token) :
    ((key draft).run (.text (some entry.1) :: .colon :: (entry.2.tokens ++ rest))).toOption =
      (draft.add? entry).bind fun draft ↦ ((nextMember draft).run rest).toOption := by
  rw [run_cons, step, takeKey, Draft.add?]
  cases Field.ofName? entry.1 with
  | none =>
    calc
      _ = ((skipping draft .start).run (entry.2.tokens ++ rest)).toOption := rfl
      _ = _ := congrArg Except.toOption (run_skip_value draft [] entry.2 rest)
  | some field =>
    dsimp only
    cases draft.given.contains field with
    | true => rfl
    | false => exact toOption_run_value draft field entry.2 rest

theorem toOption_run_members (draft : Draft) (members : Members) (rest : List Token) :
    ((key draft).run (members.tokens ++ rest)).toOption =
      (members.entries.foldlM Draft.add? draft).bind fun draft ↦
        ((nextMember draft).run rest).toOption := by
  cases members with
  | last beforeKey key afterKey before value after =>
    simp only [Members.tokens, Members.entries, List.cons_append, List.foldlM_cons,
      List.foldlM_nil]
    rw [toOption_run_entry draft (key.text, value)]
    cases draft.add? (key.text, value) <;> rfl
  | more beforeKey key afterKey before value after others =>
    have tail (draft : Draft) :
        ((nextMember draft).run (.comma :: (others.tokens ++ rest))).toOption = _ :=
      toOption_run_members draft others rest
    simp only [Members.tokens, Members.entries, List.cons_append, List.append_assoc,
      List.foldlM_cons]
    rw [toOption_run_entry draft (key.text, value)]
    simp only [tail]
    cases draft.add? (key.text, value) <;> rfl

end Reader

/-! ### What fits -/

/-- The values that members give to a field. -/
def valuesOf (field : Field) (entries : List Entry) : List Value :=
  (entries.filter (·.1 = field.name)).map Prod.snd

/-- A field is given one value at most, which is a plain natural number within its range. -/
structure Field.Fits (field : Field) (values : List Value) : Prop where
  once : values.length ≤ 1
  plain : ∀ value ∈ values, ∃ number, value.natural? = some number ∧ number < field.range

/-- The members fit every field. -/
def Fits (entries : List Entry) : Prop :=
  ∀ field : Field, field.Fits (valuesOf field entries)

/-- The default options with the fields that are named set to their numbers. -/
structure Filled (entries : List Entry) (options : Options) : Prop where
  named : ∀ field, ∀ value ∈ valuesOf field entries, value.natural? = some (options.get field)
  others : ∀ field, valuesOf field entries = [] → options.get field = ({} : Options).get field

theorem valuesOf_cons_self (field : Field) (value : Value) (entries : List Entry) :
    valuesOf field ((field.name, value) :: entries) = value :: valuesOf field entries := by
  simp [valuesOf]

theorem valuesOf_cons_of_ne {field : Field} {entry : Entry} (differs : field.name ≠ entry.1)
    (entries : List Entry) : valuesOf field (entry :: entries) = valuesOf field entries := by
  simp [valuesOf, differs.symm]

namespace Field

theorem number_eq_some {field : Field} {value : Value} {number : Nat} :
    field.number? value = some number ↔ value.natural? = some number ∧ number < field.range := by
  simp [number?, Option.filter_eq_some_iff]

theorem fits_nil (field : Field) : field.Fits [] :=
  ⟨Nat.zero_le 1, nofun⟩

theorem fits_cons {field : Field} {value : Value} {values : List Value} :
    field.Fits (value :: values) ↔ (∃ number, field.number? value = some number) ∧ values = [] := by
  constructor
  · intro fits
    have alone := fits.once
    rw [List.length_cons] at alone
    exact ⟨(fits.plain value (by simp)).imp fun _ ↦ number_eq_some.mpr,
      List.length_eq_zero_iff.mp (by omega)⟩
  · rintro ⟨⟨number, plain⟩, rfl⟩
    refine ⟨by simp, fun other mem ↦ ?_⟩
    rw [List.mem_singleton.mp mem]
    exact ⟨number, number_eq_some.mp plain⟩

end Field

/-- The members fit a draft: they fit every field, and name none that it was given. -/
def Draft.Admits (draft : Draft) (entries : List Entry) : Prop :=
  ∀ field : Field, field.Fits (valuesOf field entries) ∧
    (field ∈ draft.given → valuesOf field entries = [])

namespace Draft

theorem admits_nil (draft : Draft) : draft.Admits [] :=
  fun field ↦ ⟨field.fits_nil, fun _ ↦ rfl⟩

theorem admits_cons_unknown {draft : Draft} {entry : Entry}
    (unknown : Field.ofName? entry.1 = none) (entries : List Entry) :
    draft.Admits (entry :: entries) ↔ draft.Admits entries := by
  have same (field : Field) : valuesOf field (entry :: entries) = valuesOf field entries :=
    valuesOf_cons_of_ne (Field.ofName_eq_none.mp unknown field) entries
  simp only [Admits, same]

theorem admits_cons_known {draft : Draft} {field : Field} {value : Value} {entries : List Entry} :
    draft.Admits ((field.name, value) :: entries) ↔
      field ∉ draft.given ∧
        ∃ number, field.number? value = some number ∧ (draft.put field number).Admits entries := by
  have other {other : Field} (differs : other ≠ field) :
      valuesOf other ((field.name, value) :: entries) = valuesOf other entries :=
    valuesOf_cons_of_ne (Field.name_injective.ne differs) entries
  constructor
  · intro admits
    obtain ⟨fits, spared⟩ := admits field
    rw [valuesOf_cons_self] at fits spared
    obtain ⟨⟨number, plain⟩, nothing⟩ := Field.fits_cons.mp fits
    refine ⟨fun given ↦ (nomatch spared given), number, plain, fun which ↦ ?_⟩
    by_cases differs : which = field
    · rw [differs, nothing]
      exact ⟨field.fits_nil, fun _ ↦ rfl⟩
    · have := admits which
      rw [other differs] at this
      exact ⟨this.1, fun given ↦ this.2 ((List.mem_cons.mp given).resolve_left differs)⟩
  · rintro ⟨fresh, number, plain, admits⟩ which
    by_cases differs : which = field
    · have nothing := (admits field).2 List.mem_cons_self
      rw [differs, valuesOf_cons_self, nothing]
      exact ⟨Field.fits_cons.mpr ⟨⟨number, plain⟩, rfl⟩, fun given ↦ (fresh given).elim⟩
    · rw [other differs]
      exact ⟨(admits which).1, fun given ↦ (admits which).2 (List.mem_cons_of_mem field given)⟩

theorem add_unknown (draft : Draft) {entry : Entry} (unknown : Field.ofName? entry.1 = none) :
    draft.add? entry = some draft := by
  rw [add?, unknown]

theorem add_known (draft : Draft) (field : Field) (value : Value) :
    draft.add? (field.name, value) =
      if field ∈ draft.given then none else (field.number? value).map (draft.put field) := by
  simp [add?, Field.ofName_eq_some.mpr rfl]

/-- Members are all taken if and only if the draft admits them. -/
theorem isSome_add_iff (draft : Draft) (entries : List Entry) :
    (entries.foldlM add? draft).isSome ↔ draft.Admits entries := by
  induction entries generalizing draft with
  | nil => exact ⟨fun _ ↦ draft.admits_nil, fun _ ↦ rfl⟩
  | cons entry entries ih =>
    obtain ⟨name, value⟩ := entry
    cases known : Field.ofName? name with
    | none =>
      rw [List.foldlM_cons, draft.add_unknown known, admits_cons_unknown known]
      exact ih draft
    | some field =>
      obtain rfl := Field.ofName_eq_some.mp known
      rw [admits_cons_known, List.foldlM_cons, add_known]
      by_cases given : field ∈ draft.given
      · simp [given]
      · cases plain : field.number? value with
        | none => simp
        | some number => simp [given, ih]

/-- What the fields hold once members were taken. -/
theorem get_of_add {draft full : Draft} {entries : List Entry}
    (taken : entries.foldlM add? draft = some full) (field : Field) :
    (∀ value ∈ valuesOf field entries, value.natural? = some (full.options.get field)) ∧
      (valuesOf field entries = [] → full.options.get field = draft.options.get field) := by
  induction entries generalizing draft with
  | nil =>
    cases taken
    exact ⟨nofun, fun _ ↦ rfl⟩
  | cons entry entries ih =>
    obtain ⟨name, value⟩ := entry
    have admits := (isSome_add_iff draft _).mp (by rw [taken]; rfl)
    rw [List.foldlM_cons] at taken
    obtain ⟨next, added, rest⟩ := Option.bind_eq_some_iff.mp taken
    cases known : Field.ofName? name with
    | none =>
      rw [draft.add_unknown known] at added
      cases added
      rw [valuesOf_cons_of_ne (Field.ofName_eq_none.mp known field)]
      exact ih rest
    | some other =>
      obtain rfl := Field.ofName_eq_some.mp known
      obtain ⟨fresh, number, plain, left⟩ := admits_cons_known.mp admits
      rw [add_known, if_neg fresh, plain] at added
      cases added
      have later := ih rest
      by_cases same : field = other
      · subst same
        -- Nothing is left for the field, so it keeps the number that it was just set to.
        have nothing := (left field).2 List.mem_cons_self
        obtain ⟨natural, fits⟩ := Field.number_eq_some.mp plain
        have kept : full.options.get field = number :=
          (later.2 nothing).trans (draft.options.get_set_self fits)
        rw [valuesOf_cons_self, nothing, kept]
        exact ⟨by simpa using natural, nofun⟩
      · have unchanged := draft.options.get_set_of_ne same number
        rw [valuesOf_cons_of_ne (Field.name_injective.ne same)]
        exact ⟨later.1, fun nothing ↦ (later.2 nothing).trans unchanged⟩

end Draft

/-! ### Reading -/

theorem toOption_finish (outcome : Except ReadFault Reader) :
    (outcome.bind Reader.finish).toOption =
      outcome.toOption.bind fun reader ↦ (Reader.finish reader).toOption := by
  cases outcome <;> rfl

/-- Reading an object is taking its members one by one. -/
theorem toOption_ofText {document : Document} {entries : List Entry}
    (object : document.value.entries? = some entries) :
    (ofText document.text).toOption = (entries.foldlM Draft.add? {}).map Draft.options := by
  rw [ofText, ofText_document, ofTokens]
  cases value : document.value with
  | emptyObject gap =>
    rw [value] at object
    cases object
    rfl
  | object members =>
    rw [value] at object
    cases object
    have first : Reader.start.run (Value.object members).tokens =
        (Reader.key {}).run (members.tokens ++ [.closeBrace]) := by
      cases members <;> rfl
    rw [first, toOption_finish, Reader.toOption_run_members]
    cases members.entries.foldlM Draft.add? {} <;> rfl
  | _ => simp [value, Value.entries?] at object

/-- Only one setting of the options fills them from these members. -/
theorem Filled.unique {entries : List Entry} {options others : Options}
    (one : Filled entries options) (other : Filled entries others) : options = others := by
  refine ext_get fun field ↦ ?_
  cases values : valuesOf field entries with
  | nil => rw [one.others field values, other.others field values]
  | cons value rest =>
    have mem : value ∈ valuesOf field entries := by rw [values]; exact List.mem_cons_self
    exact Option.some.inj ((one.named field value mem).symm.trans (other.named field value mem))

theorem accepted_iff {document : Document} {entries : List Entry}
    (object : document.value.entries? = some entries) :
    (∃ options, ofText document.text = .ok options) ↔ Fits entries := by
  have isSome {outcome : Except ReadFault Options} :
      (∃ options, outcome = .ok options) ↔ outcome.toOption.isSome := by
    cases outcome <;> simp [Except.toOption]
  rw [isSome, toOption_ofText object, Option.isSome_map, Draft.isSome_add_iff]
  exact ⟨fun admits field ↦ (admits field).1, fun fits field ↦ ⟨fits field, nofun⟩⟩

theorem ofText_eq_ok_iff {document : Document} {entries : List Entry}
    (object : document.value.entries? = some entries) (options : Options) :
    ofText document.text = .ok options ↔ Fits entries ∧ Filled entries options := by
  have filled {options : Options} (read : ofText document.text = .ok options) :
      Filled entries options := by
    have outcome := toOption_ofText object
    rw [read] at outcome
    obtain ⟨full, taken, rfl⟩ := Option.map_eq_some_iff.mp outcome.symm
    exact ⟨fun field ↦ (Draft.get_of_add taken field).1,
      fun field ↦ (Draft.get_of_add taken field).2⟩
  constructor
  · exact fun read ↦ ⟨(accepted_iff object).mp ⟨options, read⟩, filled read⟩
  · rintro ⟨fits, given⟩
    obtain ⟨others, read⟩ := (accepted_iff object).mpr fits
    rw [read, (filled read).unique given]

/-- What becomes of the text of an object with these members. -/
structure ReadsAsFilled (text : String) (entries : List Entry) : Prop where
  accepted : (∃ options, ofText text = .ok options) ↔ Fits entries
  filled : ∀ options, ofText text = .ok options ↔ Fits entries ∧ Filled entries options

/-- An object is accepted if and only if its members fit, whatever its text looks like and whatever
else it holds, and its numbers then replace the defaults. -/
theorem readsAsFilled_of_object {document : Document} {entries : List Entry}
    (object : document.value.entries? = some entries) :
    ReadsAsFilled document.text entries :=
  ⟨accepted_iff object, ofText_eq_ok_iff object⟩

/-- An object with an escaped key, and with an unknown member whose value holds a known name:
`{"\u0062atch_size":7, "other":[{"batch_size":-0.5e+3}] ,"other":null,"max_retries":4294967295}`. -/
def mixedObject : Document :=
  { before := []
    value := .object
      (.more [] (.coded 'b' (fun _ ↦ false) (fun _ ↦ false) :: Spelled.ofText "atch_size") [] []
        (.number ⟨false, .ofNat 7, none, none⟩) []
      (.more [.space] (Spelled.ofText "other") [] [] (.array (.last []
        (.object (.last [] (Spelled.ofText "batch_size") [] []
          (.number ⟨true, .zero, some ⟨.ofChar '5', []⟩, some ⟨false, some .plus, .ofChar '3', []⟩⟩)
          [])) [])) [.space]
      (.more [] (Spelled.ofText "other") [] [] .null []
      (.last [] (Spelled.ofText "max_retries") [] []
        (.number ⟨false, .ofNat 4294967295, none, none⟩) []))))
    after := [.newline] }

theorem readsAsFilled_of_mixedObject :
    mixedObject.text = "\x7b\"\\u0062atch_size\":7, \"other\":[\x7b\"batch_size\":-0.5e+3\x7d] ," ++
        "\"other\":null,\"max_retries\":4294967295\x7d\n" ∧
      ofText mixedObject.text = .ok { batchSize := 7, maxRetries := 4294967295 } := by
  have object : mixedObject.value.entries? = some _ := rfl
  have reads := readsAsFilled_of_object object
  refine ⟨by decide, (reads.filled _).mpr ⟨fun field ↦ ?_, ⟨fun field ↦ ?_, fun field ↦ ?_⟩⟩⟩
  · exact ((Draft.isSome_add_iff {} _).mp rfl field).1
  · cases field <;> decide
  · cases field <;> decide

end LineDelivery.Options
