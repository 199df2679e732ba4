/-
# Groups

A group is one stage of a rollout: a list of devices, the conditions that decide how the stage
ends, and the counters of its actions.
-/
import StagedRollout.Rollout.Action

namespace StagedRollout

/-- A criterion on the number of actions with some status. -/
inductive Condition where
  /-- At least a percentage of the group's actions. -/
  | threshold (percent : Nat)
  /-- At least a number of actions. -/
  | count (required : Nat)
deriving DecidableEq, Repr, Inhabited

/-- Where a group stands. -/
inductive GroupState where
  | scheduled
  | ready
  | running
  | finished
  | error
deriving DecidableEq, Repr, Inhabited

namespace GroupState

instance : Named GroupState where
  choices := [scheduled, ready, running, finished, error]
  name
    | scheduled => "scheduled"
    | ready => "ready"
    | running => "running"
    | finished => "finished"
    | error => "error"
  mem_choices a := by cases a <;> simp
  name_injective a b := by cases a <;> cases b <;> simp

/-- Whether the group has ended. -/
def isDone : GroupState → Bool
  | finished | error => true
  | _ => false

end GroupState

/-- How a finished group got there. -/
inductive GroupOutcome where
  /-- Its success condition was met. -/
  | success
  /-- Every action ended and the success condition was not met. -/
  | degraded
  /-- An operator ended it. -/
  | triggered
deriving DecidableEq, Repr, Inhabited

instance : Named GroupOutcome where
  choices := [.success, .degraded, .triggered]
  name
    | .success => "success"
    | .degraded => "degraded"
    | .triggered => "triggered"
  mem_choices a := by cases a <;> simp
  name_injective a b := by cases a <;> cases b <;> simp

/-- One stage of a rollout.  Times are in seconds. -/
structure RolloutGroup where
  id : GroupId
  rolloutId : RolloutId
  /-- Its place in the progression, from zero. -/
  index : Nat
  name : String
  targets : List TargetId
  targetCount : Nat
  successCondition : Condition
  errorCondition : Option Condition
  errorAction : ErrorAction
  state : GroupState
  outcome : Option GroupOutcome
  counts : StatusCounts
  /-- Whether an operator resumed the rollout after this group failed. -/
  errorAcknowledged : Bool
  startedAt : Option Nat
  finishedAt : Option Nat
deriving DecidableEq, Repr, Inhabited

namespace RolloutGroup

/-- The id of the group at an index. -/
def idOf (rollout : RolloutId) (index : Nat) : GroupId :=
  rollout ++ ":" ++ Text.fourDigits index

/-- Whether the group behind this one may start. -/
def releasesSuccessor (g : RolloutGroup) : Bool :=
  match g.state with
  | .finished => true
  | .error => g.errorAcknowledged
  | _ => false

end RolloutGroup

end StagedRollout
