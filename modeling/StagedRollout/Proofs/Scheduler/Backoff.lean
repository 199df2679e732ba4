/-
# How waits grow

The wait behind failures in a row is doubled by every further one until it reaches the limit.  It
is computed with numbers of 32 bits, so the factor stops growing at `maxFactor`, and with durations
that end somewhere too.  A limit of at most `maxFactor` times the first wait is reached before the
factor stops, so nothing of this shows (`wait_doubles`); behind 32 failures a higher limit is never
reached.
-/
import Mathlib
import StagedRollout.Scheduler.Backoff

namespace StagedRollout.Backoff

/-! ## The factor -/

/-- Up to 32 failures a power of two is a factor. -/
lemma pow_le_maxFactor {failures : Nat} (h : failures ≤ 32) : 2 ^ (failures - 1) ≤ maxFactor := by
  have hpow : 2 ^ (failures - 1) ≤ 2 ^ 31 := Nat.pow_le_pow_right (by decide) (by omega)
  unfold maxFactor
  omega

/-- Behind more than 32 failures a power of two is above the largest factor. -/
lemma maxFactor_lt_pow {failures : Nat} (h : 32 < failures) :
    maxFactor < 2 ^ (failures - 1) := by
  have hpow : 2 ^ 32 ≤ 2 ^ (failures - 1) := Nat.pow_le_pow_right (by decide) (by omega)
  unfold maxFactor
  omega

lemma factor_of_le {failures : Nat} (h : failures ≤ 32) : factor failures = 2 ^ (failures - 1) := by
  have hexponent : min (failures - 1) 32 = failures - 1 := by omega
  rw [factor, hexponent, Nat.one_shiftLeft, Nat.min_eq_left (pow_le_maxFactor h)]

lemma factor_of_lt {failures : Nat} (h : 32 < failures) : factor failures = maxFactor := by
  have hexponent : min (failures - 1) 32 = 32 := by omega
  rw [factor, hexponent]
  rfl

/-- The factor is a power of two that stops at the largest factor. -/
lemma factor_eq (failures : Nat) : factor failures = min (2 ^ (failures - 1)) maxFactor := by
  rcases Nat.lt_or_ge 32 failures with h | h
  · rw [factor_of_lt h, Nat.min_eq_right (Nat.le_of_lt (maxFactor_lt_pow h))]
  · rw [factor_of_le h, Nat.min_eq_left (pow_le_maxFactor h)]

lemma factor_mono {failures later : Nat} (h : failures ≤ later) :
    factor failures ≤ factor later := by
  have hpow : 2 ^ (failures - 1) ≤ 2 ^ (later - 1) :=
    Nat.pow_le_pow_right (by decide) (by omega)
  rw [factor_eq, factor_eq]
  exact min_le_min_right _ hpow

/-! ## The wait -/

/-- The wait as it comes out of operations that stop at the largest number they can give: a
difference at zero, a power at the largest factor and a product at the longest duration. -/
def saturating (longest base limit failures : Nat) : Nat :=
  min (min (base * min (2 ^ (failures - 1)) maxFactor) longest) limit

/-- A limit that is a duration itself hides where durations end. -/
lemma saturating_eq_wait {longest limit : Nat} (h : limit ≤ longest) (base failures : Nat) :
    saturating longest base limit failures = wait base limit failures := by
  rw [saturating, wait, factor_eq, Nat.min_assoc, Nat.min_eq_right h]

/-- The unit in which durations are counted does not matter. -/
lemma wait_mul (unit base limit failures : Nat) :
    wait (unit * base) (unit * limit) failures = unit * wait base limit failures := by
  rw [wait, wait, Nat.mul_assoc, Nat.mul_min_mul_left]

lemma wait_mono (base limit : Nat) {failures later : Nat} (h : failures ≤ later) :
    wait base limit failures ≤ wait base limit later :=
  min_le_min_right _ (Nat.mul_le_mul_left base (factor_mono h))

/-- A limit that the largest factor reaches is reached by every larger factor. -/
lemma wait_of_limit_le {base limit failures : Nat} (h : 32 < failures)
    (hlimit : limit ≤ base * maxFactor) :
    wait base limit failures = min (base * 2 ^ (failures - 1)) limit := by
  have hproduct : base * maxFactor ≤ base * 2 ^ (failures - 1) :=
    Nat.mul_le_mul_left base (Nat.le_of_lt (maxFactor_lt_pow h))
  rw [wait, factor_of_lt h, Nat.min_eq_right hlimit, Nat.min_eq_right (hlimit.trans hproduct)]

/-- A limit that the largest factor does not reach is never reached. -/
lemma wait_lt_of_lt_limit {base limit failures : Nat} (h : 32 < failures) (hbase : 0 < base)
    (hlimit : base * maxFactor < limit) :
    wait base limit failures < min (base * 2 ^ (failures - 1)) limit := by
  have hproduct : base * maxFactor < base * 2 ^ (failures - 1) :=
    Nat.mul_lt_mul_of_pos_left (maxFactor_lt_pow h) hbase
  rw [wait, factor_of_lt h, Nat.min_eq_left (Nat.le_of_lt hlimit)]
  exact Nat.lt_min.2 ⟨hproduct, hlimit⟩

/-- **The wait doubles with every failure up to the limit**, exactly as long as the factor has not
stopped growing or the limit is reached before it does.  In every case the wait is never above the
limit and never decreases with more failures, and it does not matter where durations end and in
which unit they are counted. -/
theorem wait_doubles (base limit failures : Nat) :
    (wait base limit failures = min (base * 2 ^ (max failures 1 - 1)) limit ↔
      failures ≤ 32 ∨ base = 0 ∨ limit ≤ base * maxFactor) ∧
    wait base limit failures ≤ limit ∧
    (∀ later, failures ≤ later → wait base limit failures ≤ wait base limit later) ∧
    (∀ longest, limit ≤ longest →
      saturating longest base limit failures = wait base limit failures) ∧
    ∀ unit, wait (unit * base) (unit * limit) failures = unit * wait base limit failures := by
  have hexponent : max failures 1 - 1 = failures - 1 := by omega
  rw [hexponent]
  refine ⟨⟨fun heq => ?_, fun hcases => ?_⟩, wait_le_limit base limit failures,
    fun later hlater => wait_mono base limit hlater,
    fun longest hlongest => saturating_eq_wait hlongest base failures,
    fun unit => wait_mul unit base limit failures⟩
  · by_contra hnone
    push Not at hnone
    obtain ⟨hmany, hbase, hlimit⟩ := hnone
    exact Nat.ne_of_lt (wait_lt_of_lt_limit hmany (Nat.pos_of_ne_zero hbase) hlimit) heq
  · rcases Nat.lt_or_ge 32 failures with hmany | hfew
    · rcases hcases with hfew | rfl | hlimit
      · omega
      -- without a first wait there is none at all
      · rw [wait, Nat.zero_mul, Nat.zero_mul]
      · exact wait_of_limit_le hmany hlimit
    · rw [wait, factor_of_le hfew]

/-- Ten seconds are doubled up to a minute, however many failures follow. -/
theorem wait_doubles_tenSeconds :
    60000 ≤ 10000 * maxFactor ∧
      wait 10000 60000 200 = min (10000 * 2 ^ (max 200 1 - 1)) 60000 ∧
      wait 10000 60000 3 ≤ wait 10000 60000 4 ∧
      saturating 18446744073709551615999 10000 60000 3 = wait 10000 60000 3 := by
  have hreached : 60000 ≤ 10000 * maxFactor := by decide
  exact ⟨hreached, (wait_doubles 10000 60000 200).1.2 (.inr (.inr hreached)),
    (wait_doubles 10000 60000 3).2.2.1 4 (by decide),
    (wait_doubles 10000 60000 3).2.2.2.1 18446744073709551615999 (by decide)⟩

end StagedRollout.Backoff
