/-
# Waiting behind failures

A rollout whose step failed waits before it is tried again, twice as long behind every further
failure and never longer than a limit.
-/

namespace StagedRollout.Backoff

/-- Factors grow no further than this. -/
def maxFactor : Nat := 4294967295

/-- What the wait is multiplied by behind a number of failures in a row: one, doubled for every
failure behind the first. -/
def factor (failures : Nat) : Nat := min (1 <<< min (failures - 1) 32) maxFactor

/-- The wait behind a number of failures in a row, given the wait behind the first. -/
def wait (base limit failures : Nat) : Nat := min (base * factor failures) limit

theorem wait_le_limit (base limit failures : Nat) : wait base limit failures ≤ limit :=
  Nat.min_le_right _ _

example : (List.range 6).map (wait 10 60) = [10, 10, 20, 40, 60, 60] := by decide +kernel

example : factor 33 = maxFactor ∧ factor 32 = 2147483648 := by decide +kernel

end StagedRollout.Backoff
