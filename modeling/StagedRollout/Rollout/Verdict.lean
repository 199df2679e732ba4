/-
# Verdicts on a group

A running group is judged by its counters.  The error condition is asked first, so a group that
meets both conditions fails; it needs one failed action at least.
-/
import StagedRollout.Rollout.Group

namespace StagedRollout

/-- What the counters of a running group say. -/
inductive Verdict where
  /-- Neither condition is met, and actions wait for devices. -/
  | pending
  | succeeded
  /-- Every action has ended and the success condition is not met. -/
  | degraded
  | failed
deriving DecidableEq, Repr, Inhabited

instance : Named Verdict where
  choices := [.pending, .succeeded, .degraded, .failed]
  name
    | .pending => "pending"
    | .succeeded => "succeeded"
    | .degraded => "degraded"
    | .failed => "failed"
  mem_choices a := by cases a <;> simp
  name_injective a b := by cases a <;> cases b <;> simp

/-- Whether `count` of `total` actions satisfy a condition. -/
def Condition.isMet (c : Condition) (count total : Nat) : Bool :=
  match c with
  | threshold percent => decide (percent * total ≤ count * 100)
  | .count required => decide (required ≤ count)

/-- Whether there is an error condition that failed actions satisfy. -/
def errorMet (error : Option Condition) (failed total : Nat) : Bool :=
  match error with
  | some c => decide (0 < failed) && c.isMet failed total
  | none => false

/-- The verdict on counters.  A group without actions succeeds. -/
def StatusCounts.verdict (c : StatusCounts) (success : Condition) (error : Option Condition) :
    Verdict :=
  if c.total = 0 then .succeeded
  -- the error condition comes first, so meeting both conditions is a failure
  else if errorMet error c.finishedError c.total then .failed
  else if success.isMet c.finishedSuccess c.total then .succeeded
  else if c.pending = 0 then .degraded
  else .pending

namespace RolloutGroup

/-- The verdict on a group. -/
def verdict (g : RolloutGroup) : Verdict := g.counts.verdict g.successCondition g.errorCondition

/-- The state and the outcome that a verdict gives, if it ends a group. -/
def settledBy : Verdict → Option (GroupState × Option GroupOutcome)
  | .pending => none
  | .succeeded => some (.finished, some .success)
  | .degraded => some (.finished, some .degraded)
  | .failed => some (.error, none)

/-- The group behind a verdict that ends it; nothing if the group is not running or goes on. -/
def settle? (g : RolloutGroup) (verdict : Verdict) (now : Nat) : Option RolloutGroup :=
  if g.state = .running then
    (settledBy verdict).map fun (state, outcome) =>
      { g with state := state, outcome := outcome, finishedAt := some now }
  else none

/-- The group that an operator ends, if it is running. -/
def trigger? (g : RolloutGroup) (now : Nat) : Option RolloutGroup :=
  if g.state = .running then
    some { g with state := .finished, outcome := some .triggered, finishedAt := some now }
  else none

/-- The failed group that an operator acknowledges, if its error pauses the rollout. -/
def acknowledge? (g : RolloutGroup) : Option RolloutGroup :=
  if g.state = .error ∧ g.errorAction = .pause then some { g with errorAcknowledged := true }
  else none

end RolloutGroup

end StagedRollout
