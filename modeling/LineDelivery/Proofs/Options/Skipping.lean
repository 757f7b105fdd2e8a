import LineDelivery.Options.Reader
import LineDelivery.Proofs.Json.Tokens

/-!
# Skipping values

A value of any kind that no field takes is passed over whole: the reader stands behind it with the
draft that it had before, whatever is nested inside.
-/

namespace LineDelivery.Options

open LineDelivery.Json LineDelivery.Json.Grammar

namespace Reader

theorem run_cons (reader : Reader) (token : Token) (tokens : List Token) :
    reader.run (token :: tokens) = (reader.step token).bind (run · tokens) :=
  List.foldlM_cons

/-- Behind a value that was skipped inside these frames. -/
def skipped (draft : Draft) (frames : List Frame) : Reader :=
  if frames.isEmpty then .nextMember draft else .skipping draft { expected := .separator, frames }

theorem run_skipping_of_ends {draft : Draft} {skip : Skip} {token : Token} {frames : List Frame}
    (ends : skip.step token = Skip.afterValue frames) (rest : List Token) :
    (skipping draft skip).run (token :: rest) = (skipped draft frames).run rest := by
  rw [run_cons, step, takeSkipped, ends, Skip.afterValue, skipped]
  cases frames.isEmpty <;> rfl

theorem run_skipping_of_more {draft : Draft} {skip next : Skip} {token : Token}
    (more : skip.step token = .more next) (rest : List Token) :
    (skipping draft skip).run (token :: rest) = (skipping draft next).run rest := by
  rw [run_cons, step, takeSkipped, more]
  rfl

theorem value_tokens_eq_cons (value : Value) :
    ∃ token rest, value.tokens = token :: rest ∧ token ≠ .closeBracket := by
  cases value <;> simp [Value.tokens]

theorem elements_tokens_eq_cons (elements : Elements) :
    ∃ token rest, elements.tokens = token :: rest ∧ token ≠ .closeBracket := by
  cases elements with
  | last before value after => simpa [Elements.tokens] using value_tokens_eq_cons value
  | more before value after others =>
    obtain ⟨token, rest, begins, notEnd⟩ := value_tokens_eq_cons value
    exact ⟨token, rest ++ .comma :: others.tokens, by simp [Elements.tokens, begins], notEnd⟩

/-- The first value in an array is skipped like any other. -/
theorem run_firstElement (draft : Draft) (frames : List Frame) (elements : Elements)
    (rest : List Token) :
    (skipping draft { expected := .firstElement, frames }).run (elements.tokens ++ rest) =
      (skipping draft { expected := .value, frames }).run (elements.tokens ++ rest) := by
  obtain ⟨token, others, begins, notEnd⟩ := elements_tokens_eq_cons elements
  simp [begins, run_cons, step, takeSkipped, Skip.step, notEnd]

theorem run_skip_key (draft : Draft) (frames : List Frame) (content? : Option String)
    (rest : List Token) :
    (skipping draft { expected := .key, frames }).run (.text content? :: .colon :: rest) =
      (skipping draft { expected := .value, frames }).run rest :=
  calc
    _ = (skipping draft { expected := .colon, frames }).run (.colon :: rest) :=
      run_skipping_of_more rfl _
    _ = _ := run_skipping_of_more rfl _

mutual

theorem run_skip_value (draft : Draft) (frames : List Frame) (value : Value) (rest : List Token) :
    (skipping draft { expected := .value, frames }).run (value.tokens ++ rest) =
      (skipped draft frames).run rest := by
  cases value with
  | null => exact run_skipping_of_ends rfl rest
  | boolean truth => exact run_skipping_of_ends rfl rest
  | number number => exact run_skipping_of_ends rfl rest
  | text spelled => exact run_skipping_of_ends rfl rest
  | emptyArray gap =>
    calc
      _ = (skipping draft { expected := .firstElement, frames := .array :: frames }).run
            (.closeBracket :: rest) := run_skipping_of_more rfl _
      _ = _ := run_skipping_of_ends rfl rest
  | array elements =>
    rw [Value.tokens, List.append_assoc, List.cons_append]
    calc
      _ = (skipping draft { expected := .firstElement, frames := .array :: frames }).run
            (elements.tokens ++ .closeBracket :: rest) := run_skipping_of_more rfl _
      _ = _ := run_firstElement ..
      _ = _ := run_skip_elements ..
  | emptyObject gap =>
    calc
      _ = (skipping draft { expected := .firstKey, frames := .object :: frames }).run
            (.closeBrace :: rest) := run_skipping_of_more rfl _
      _ = _ := run_skipping_of_ends rfl rest
  | object members =>
    rw [Value.tokens, List.append_assoc, List.cons_append]
    calc
      _ = (skipping draft { expected := .firstKey, frames := .object :: frames }).run
            (members.tokens ++ .closeBrace :: rest) := run_skipping_of_more rfl _
      _ = (skipping draft { expected := .key, frames := .object :: frames }).run
            (members.tokens ++ .closeBrace :: rest) := by cases members <;> rfl
      _ = _ := run_skip_members ..

theorem run_skip_elements (draft : Draft) (frames : List Frame) (elements : Elements)
    (rest : List Token) :
    (skipping draft { expected := .value, frames := .array :: frames }).run
        (elements.tokens ++ .closeBracket :: rest) =
      (skipped draft frames).run rest := by
  cases elements with
  | last before value after =>
    rw [Elements.tokens, run_skip_value]
    exact run_skipping_of_ends rfl rest
  | more before value after others =>
    rw [Elements.tokens, List.append_assoc, run_skip_value, List.cons_append]
    calc
      _ = (skipping draft { expected := .value, frames := .array :: frames }).run
            (others.tokens ++ .closeBracket :: rest) := run_skipping_of_more rfl _
      _ = _ := run_skip_elements ..

theorem run_skip_members (draft : Draft) (frames : List Frame) (members : Members)
    (rest : List Token) :
    (skipping draft { expected := .key, frames := .object :: frames }).run
        (members.tokens ++ .closeBrace :: rest) =
      (skipped draft frames).run rest := by
  cases members with
  | last beforeKey key afterKey before value after =>
    rw [Members.tokens, List.cons_append, List.cons_append, run_skip_key, run_skip_value]
    exact run_skipping_of_ends rfl rest
  | more beforeKey key afterKey before value after others =>
    rw [Members.tokens, List.cons_append, List.cons_append, run_skip_key, List.append_assoc,
      run_skip_value, List.cons_append]
    calc
      _ = (skipping draft { expected := .key, frames := .object :: frames }).run
            (others.tokens ++ .closeBrace :: rest) := run_skipping_of_more rfl _
      _ = _ := run_skip_members ..

end

end Reader

end LineDelivery.Options
