import LineDelivery.Proofs.Backoff.Words
import Mathlib.Data.Set.Image
import Mathlib.Order.Interval.Set.Basic

/-!
# The delays that can be drawn

A delay can come out as every number between two bounds, and as no other. Without a jitter more
failures never make for a shorter delay, whatever is drawn, and also where the range gives way to the
maximum.
-/

namespace LineDelivery.Backoff

variable {backoff : Backoff} {error : DeliveryError} {failures : Nat}

/-- What is drawn below the end of a range and cut at a maximum, and a jitter added in words. -/
theorem range_drawn {low high : Nat} (less : low < high) (fits : high ≤ Time.maxWord)
    (most jitter : Nat) :
    (Set.range fun draw : Draw ↦ min (min (low + draw.delay % (high - low)) most +
      draw.jitter % max jitter 1) Time.maxWord) =
        Set.Icc (min low most) (min (min (high - 1) most + (max jitter 1 - 1)) Time.maxWord) := by
  ext delay
  simp only [Set.mem_range, Set.mem_Icc]
  constructor
  · rintro ⟨draw, rfl⟩
    have below := Nat.mod_lt draw.delay (Nat.sub_pos_of_lt less)
    have extra := Nat.mod_lt draw.jitter (Nat.lt_of_lt_of_le Nat.one_pos (Nat.le_max_right jitter 1))
    omega
  · rintro ⟨least, greatest⟩
    -- As much as possible is drawn for the delay itself, and the jitter makes up the rest.
    let drawn := max low (min delay (min (high - 1) most))
    refine ⟨⟨drawn - low, delay - min drawn most⟩, ?_⟩
    have inRange : drawn - low < high - low := by omega
    have inJitter : delay - min drawn most < max jitter 1 := by omega
    simp only [Nat.mod_eq_of_lt inRange, Nat.mod_eq_of_lt inJitter]
    omega

/-- The bounds are the least and the greatest delay, and every delay between them can come out. -/
theorem range_delay (backoff : Backoff) (error : DeliveryError) (failures : Nat) :
    Set.range (backoff.delay error failures) =
      Set.Icc (backoff.bounds error failures).1 (backoff.bounds error failures).2 := by
  have : Nonempty Draw := ⟨⟨0, 0⟩⟩
  unfold delay bounds
  cases error.pause? with
  | some seconds => exact Set.range_const.trans (Set.Icc_self _).symm
  | none =>
    cases range : backoff.range? failures with
    | none => exact Set.range_const.trans (Set.Icc_self _).symm
    | some ends =>
      obtain ⟨draws, low, high⟩ := range?_eq_some_iff.mp range
      have less : ends.1 < ends.2 := low ▸ high ▸ draws.low_lt_high
      have fits : ends.2 ≤ Time.maxWord := high ▸ draws.fits
      exact range_drawn less fits backoff.maxInterval backoff.jitter

theorem bounds_of_draws (unasked : error.pause? = none) (draws : backoff.Draws failures) :
    backoff.bounds error failures =
      (min (backoff.interval * backoff.base ^ failures) backoff.maxInterval,
        min (min (backoff.interval * backoff.base ^ (failures + 1) - 1) backoff.maxInterval +
          (max backoff.jitter 1 - 1)) Time.maxWord) := by
  have range := range?_eq_some_iff.mpr ⟨draws, rfl, rfl⟩
  simp only [bounds, unasked, range]

theorem bounds_of_not_draws (unasked : error.pause? = none) (useless : ¬ backoff.Draws failures) :
    backoff.bounds error failures = (backoff.maxInterval, backoff.maxInterval) := by
  have range : backoff.range? failures = none :=
    Option.eq_none_iff_forall_ne_some.mpr fun _ found ↦ useless (range?_eq_some_iff.mp found).1
  simp only [bounds, unasked, range]

/-- The next delay can come out as every number between two bounds and as no other, and it is
remembered. -/
theorem range_next (backoff : Backoff) (error : DeliveryError) (failures : Nat) :
    let low := backoff.interval * backoff.base ^ failures
    let high := backoff.interval * backoff.base ^ (failures + 1)
    let delays := Set.range fun draw ↦ (backoff.next error failures draw).1
    backoff.range? failures = backoff.wordRange? failures ∧
      (error.pause? = none → 2 ≤ backoff.base ∧ 1 ≤ backoff.interval ∧ high ≤ Time.maxWord →
        delays = Set.Icc (min low backoff.maxInterval)
          (min Time.maxWord (min (high - 1) backoff.maxInterval + max backoff.jitter 1 - 1))) ∧
      (error.pause? = none → ¬ (2 ≤ backoff.base ∧ 1 ≤ backoff.interval ∧ high ≤ Time.maxWord) →
        delays = {backoff.maxInterval}) ∧
      (∀ seconds, error.pause? = some seconds → delays = {min (1000 * seconds) Time.maxWord}) ∧
      ∀ draw, (backoff.next error failures draw).2 =
        { backoff with current := (backoff.next error failures draw).1 } := by
  intro low high delays
  have between : delays = Set.Icc _ _ := range_delay backoff error failures
  refine ⟨range?_eq_wordRange? _ _, ?_, ?_, ?_, fun _ ↦ rfl⟩
  · rintro unasked ⟨base, interval, fits⟩
    have jitter : 1 ≤ max backoff.jitter 1 := Nat.le_max_right _ _
    rw [between, bounds_of_draws unasked ⟨base, interval, fits⟩, Nat.add_sub_assoc jitter,
      Nat.min_comm Time.maxWord]
  · intro unasked useless
    have never : ¬ backoff.Draws failures :=
      fun draws ↦ useless ⟨draws.base, draws.interval, draws.fits⟩
    rw [between, bounds_of_not_draws unasked never, Set.Icc_self]
  · intro seconds pause
    rw [between]
    simp only [bounds, pause, Set.Icc_self]

/-- An interval of three milliseconds that doubles, and jitter past the last word. -/
def steep : Backoff where
  interval := 3
  base := 2
  maxInterval := Time.maxWord
  jitter := 2 ^ 63

/-- After 61 failures the range just ends at a word, and the jitter is cut off; after 62 there is no
range; and a server can ask for more milliseconds than there are words. -/
theorem range_next_steep :
    let busy := DeliveryError.server 503 "busy" none
    let asking := DeliveryError.server 429 "slow down" (some (2 ^ 60))
    busy.pause? = none ∧ asking.pause? = some (2 ^ 60) ∧
      (2 ≤ steep.base ∧ 1 ≤ steep.interval ∧
        steep.interval * steep.base ^ (61 + 1) ≤ Time.maxWord) ∧
      (Set.range fun draw ↦ (steep.next busy 61 draw).1) = Set.Icc (3 * 2 ^ 61) (2 ^ 64 - 1) ∧
      ¬ (2 ≤ steep.base ∧ 1 ≤ steep.interval ∧
        steep.interval * steep.base ^ (62 + 1) ≤ Time.maxWord) ∧
      (Set.range fun draw ↦ (steep.next busy 62 draw).1) = {Time.maxWord} ∧
      (Set.range fun draw ↦ (steep.next asking 61 draw).1) = {2 ^ 64 - 1} := by
  intro busy asking
  obtain ⟨-, drawn, -, -, -⟩ := range_next steep busy 61
  obtain ⟨-, -, fixed, -, -⟩ := range_next steep busy 62
  obtain ⟨-, -, -, asked, -⟩ := range_next steep asking 61
  exact ⟨rfl, rfl, by decide, drawn rfl (by decide), by decide, fixed rfl (by decide),
    asked (2 ^ 60) rfl⟩

/-! ## More failures -/

theorem next_mem_bounds (backoff : Backoff) (error : DeliveryError) (failures : Nat)
    (draw : Draw) :
    (backoff.bounds error failures).1 ≤ (backoff.next error failures draw).1 ∧
      (backoff.next error failures draw).1 ≤ (backoff.bounds error failures).2 := by
  have drawn := Set.mem_range_self (f := backoff.delay error failures) draw
  rwa [range_delay] at drawn

/-- Only jitter takes a delay past the maximum. -/
theorem bounds_le_maxInterval (still : backoff.jitter = 0) (unasked : error.pause? = none) :
    (backoff.bounds error failures).2 ≤ backoff.maxInterval := by
  by_cases draws : backoff.Draws failures
  · rw [bounds_of_draws unasked draws, still]
    omega
  · rw [bounds_of_not_draws unasked draws]

/-- What can be drawn for fewer failures ends before what can be drawn for more of them begins. -/
theorem bounds_le_bounds {first second : DeliveryError} {fewer more : Nat}
    (still : backoff.jitter = 0) (unasked : first.pause? = none) (unaskedAgain : second.pause? = none)
    (less : fewer < more) :
    (backoff.bounds first fewer).2 ≤ (backoff.bounds second more).1 := by
  by_cases draws : backoff.Draws more
  · have positive : 0 < backoff.base := Nat.lt_of_lt_of_le (by decide) draws.base
    have apart : backoff.interval * backoff.base ^ (fewer + 1) ≤
        backoff.interval * backoff.base ^ more :=
      Nat.mul_le_mul_left _ (Nat.pow_le_pow_right positive less)
    rw [bounds_of_draws unasked (draws.of_le less.le), bounds_of_draws unaskedAgain draws, still]
    dsimp only
    omega
  · rw [bounds_of_not_draws unaskedAgain draws]
    exact bounds_le_maxInterval still unasked

/-- Without a jitter a delay after more failures is no shorter, whatever was drawn for either and
whatever happened in between, and none is past the maximum. -/
theorem next_le_next {first second : DeliveryError} {fewer more : Nat}
    (still : backoff.jitter = 0) (unasked : first.pause? = none) (unaskedAgain : second.pause? = none)
    (less : fewer < more) (current : Nat) (draw other : Draw) :
    (backoff.next first fewer draw).1 ≤ ({ backoff with current }.next second more other).1 ∧
      ({ backoff with current }.next second more other).1 ≤ backoff.maxInterval := by
  have before := (next_mem_bounds backoff first fewer draw).2
  have after := next_mem_bounds { backoff with current } second more other
  exact ⟨before.trans ((bounds_le_bounds still unasked unaskedAgain less).trans after.1),
    after.2.trans (bounds_le_maxInterval still unaskedAgain)⟩

/-- A tenth of a second that doubles, up to ten seconds. -/
def steady : Backoff where
  interval := 100
  base := 2
  maxInterval := 10000
  jitter := 0

/-- The sixth failure leads to a drawn delay, the seventieth to the maximum. -/
theorem next_le_next_steady :
    let busy := DeliveryError.server 503 "busy" none
    let lost := DeliveryError.network "connection reset"
    steady.jitter = 0 ∧ busy.pause? = none ∧ lost.pause? = none ∧ 6 < 70 ∧
      (steady.next busy 6 ⟨3000, 5⟩).1 = 9400 ∧
      9400 ≤ ({ steady with current := 9400 }.next lost 70 ⟨0, 0⟩).1 ∧
      ({ steady with current := 9400 }.next lost 70 ⟨0, 0⟩).1 ≤ 10000 := by
  intro busy lost
  have law : (steady.next busy 6 ⟨3000, 5⟩).1 ≤
        ({ steady with current := 9400 }.next lost 70 ⟨0, 0⟩).1 ∧
      ({ steady with current := 9400 }.next lost 70 ⟨0, 0⟩).1 ≤ steady.maxInterval :=
    next_le_next rfl rfl rfl (by decide) 9400 ⟨3000, 5⟩ ⟨0, 0⟩
  exact ⟨rfl, rfl, rfl, by decide, rfl, law⟩

end LineDelivery.Backoff
