import LineDelivery.Backoff
import Mathlib.Algebra.GroupWithZero.Nat

/-!
# The range of a delay in words

Each end of the range is the interval times a power of the base. Worked out in words, the powers,
the products and the next number of failures can overflow, and for some bases and intervals the range
is empty. All this comes to one condition on the end of the range as a natural number.
-/

namespace LineDelivery.Backoff

variable {backoff : Backoff} {failures low high : Nat}

/-- A number that is an unsigned word of so many bits. -/
def word? (bits n : Nat) : Option Nat :=
  if n < 2 ^ bits then some n else none

/-- The interval times a power of the base, where both the power and the product are words. -/
def term? (backoff : Backoff) (exponent : Nat) : Option Nat := do
  let factor ← word? 64 (backoff.base ^ exponent)
  word? 64 (backoff.interval * factor)

/-- The range worked out in words, each of which may overflow. -/
def wordRange? (backoff : Backoff) (failures : Nat) : Option (Nat × Nat) := do
  let low ← backoff.term? failures
  let high ← backoff.term? (← word? 32 (failures + 1))
  if low < high then some (low, high) else none

/-- There is a delay to draw: the range is not empty, and its end is a word. -/
structure Draws (backoff : Backoff) (failures : Nat) : Prop where
  base : 2 ≤ backoff.base
  interval : 1 ≤ backoff.interval
  fits : backoff.interval * backoff.base ^ (failures + 1) ≤ Time.maxWord

namespace Draws

theorem pow_le (draws : backoff.Draws failures) :
    backoff.base ^ (failures + 1) ≤ Time.maxWord :=
  Nat.le_trans (Nat.le_mul_of_pos_left _ draws.interval) draws.fits

/-- A power of a base of at least two is not a word for long. -/
theorem lt (draws : backoff.Draws failures) : failures < 63 := by
  have small : 2 ^ (failures + 1) ≤ Time.maxWord :=
    Nat.le_trans (Nat.pow_le_pow_left draws.base _) draws.pow_le
  have word : Time.maxWord < 2 ^ 64 := by decide
  have few := (Nat.pow_lt_pow_iff_right (by decide)).mp (Nat.lt_of_le_of_lt small word)
  omega

theorem pow_lt_pow (draws : backoff.Draws failures) :
    backoff.base ^ failures < backoff.base ^ (failures + 1) :=
  Nat.pow_lt_pow_right draws.base (Nat.lt_succ_self _)

/-- The range is not empty. -/
theorem low_lt_high (draws : backoff.Draws failures) :
    backoff.interval * backoff.base ^ failures <
      backoff.interval * backoff.base ^ (failures + 1) :=
  Nat.mul_lt_mul_of_pos_left draws.pow_lt_pow draws.interval

/-- With fewer failures the range is there all the more. -/
theorem of_le (draws : backoff.Draws failures) {fewer : Nat} (le : fewer ≤ failures) :
    backoff.Draws fewer where
  base := draws.base
  interval := draws.interval
  fits := by
    have positive : 0 < backoff.base := Nat.lt_of_lt_of_le (by decide) draws.base
    have less := Nat.pow_le_pow_right positive (Nat.succ_le_succ le)
    exact Nat.le_trans (Nat.mul_le_mul_left _ less) draws.fits

end Draws

theorem word?_eq_some_iff {bits n value : Nat} :
    word? bits n = some value ↔ n < 2 ^ bits ∧ n = value := by
  simp [word?]

theorem lt_two_pow_64_iff {n : Nat} : n < 2 ^ 64 ↔ n ≤ Time.maxWord :=
  Nat.lt_iff_le_pred (by decide)

theorem term?_eq_some_iff {exponent value : Nat} :
    backoff.term? exponent = some value ↔
      backoff.base ^ exponent ≤ Time.maxWord ∧
        backoff.interval * backoff.base ^ exponent ≤ Time.maxWord ∧
          backoff.interval * backoff.base ^ exponent = value := by
  simp only [term?, bind, Option.bind_eq_some_iff, word?_eq_some_iff, lt_two_pow_64_iff]
  constructor
  · rintro ⟨_, ⟨power, rfl⟩, product⟩
    exact ⟨power, product⟩
  · rintro ⟨power, product⟩
    exact ⟨_, ⟨power, rfl⟩, product⟩

/-- A range that is not empty needs a base that grows and an interval. -/
theorem draws_of_lt
    (less : backoff.interval * backoff.base ^ failures <
      backoff.interval * backoff.base ^ (failures + 1))
    (fits : backoff.interval * backoff.base ^ (failures + 1) ≤ Time.maxWord) :
    backoff.Draws failures where
  base := Nat.le_of_not_lt fun small ↦ by
    obtain zero | one : backoff.base = 0 ∨ backoff.base = 1 := by omega
    · simp [zero] at less
    · simp [one] at less
  interval := Nat.pos_of_ne_zero fun zero ↦ by simp [zero] at less
  fits := fits

/-- No overflow on the way matters but that of the end of the range. -/
theorem wordRange?_eq_some_iff :
    backoff.wordRange? failures = some (low, high) ↔
      backoff.Draws failures ∧ low = backoff.interval * backoff.base ^ failures ∧
        high = backoff.interval * backoff.base ^ (failures + 1) := by
  simp only [wordRange?, bind, Option.bind_eq_some_iff, term?_eq_some_iff, word?_eq_some_iff,
    Option.ite_none_right_eq_some, Option.some.injEq, Prod.mk.injEq]
  constructor
  · rintro ⟨_, ⟨_, _, rfl⟩, _, ⟨_, rfl⟩, _, ⟨_, fits, rfl⟩, less, rfl, rfl⟩
    exact ⟨draws_of_lt less fits, rfl, rfl⟩
  · rintro ⟨draws, rfl, rfl⟩
    have few : failures + 1 < 2 ^ 32 := Nat.lt_of_le_of_lt draws.lt (by decide)
    have power := Nat.le_trans (Nat.le_of_lt draws.pow_lt_pow) draws.pow_le
    have product := Nat.le_trans (Nat.le_of_lt draws.low_lt_high) draws.fits
    exact ⟨_, ⟨power, product, rfl⟩, _, ⟨few, rfl⟩, _, ⟨draws.pow_le, draws.fits, rfl⟩,
      draws.low_lt_high, rfl, rfl⟩

theorem range?_eq_some_iff :
    backoff.range? failures = some (low, high) ↔
      backoff.Draws failures ∧ low = backoff.interval * backoff.base ^ failures ∧
        high = backoff.interval * backoff.base ^ (failures + 1) := by
  have succ : backoff.interval * backoff.base ^ failures * backoff.base =
      backoff.interval * backoff.base ^ (failures + 1) := by
    rw [Nat.pow_succ, Nat.mul_assoc]
  unfold range?
  split
  · next useless =>
    have none : ¬ backoff.Draws failures := fun draws ↦ by
      have few := draws.lt
      have base := draws.base
      have interval := draws.interval
      omega
    simp [none]
  · next useful =>
    simp only [Nat.pow_eq, succ, Option.ite_none_right_eq_some, Option.some.injEq, Prod.mk.injEq]
    constructor
    · rintro ⟨fits, rfl, rfl⟩
      exact ⟨⟨by omega, by omega, fits⟩, rfl, rfl⟩
    · rintro ⟨draws, rfl, rfl⟩
      exact ⟨draws.fits, rfl, rfl⟩

/-- The range is what words make of it. -/
theorem range?_eq_wordRange? (backoff : Backoff) (failures : Nat) :
    backoff.range? failures = backoff.wordRange? failures := by
  ext ⟨low, high⟩
  rw [range?_eq_some_iff, wordRange?_eq_some_iff]

end LineDelivery.Backoff
