/-
# Request errors

Why a request is refused.
-/
import StagedRollout.Rollout.Action
import StagedRollout.Rollout.Error
import StagedRollout.Text.Number

namespace StagedRollout

/-- Why a request is refused. -/
inductive RequestError where
  | filter (fault : TargetFilter.Fault)
  | store (e : StoreError)
  | rollout (e : RolloutError)
  /-- A number cannot be read. -/
  | number (fault : Text.NumberFault)
  /-- A word names no choice. -/
  | unknownWord (what word : String)
  /-- A condition without a colon. -/
  | malformedCondition (word : String)
  | thresholdTooHigh (percent : Nat)
  | unknownCondition (kind : String)
  | noGroups
  | malformedStart (word : String)
  | unknownTarget (id : String)
  | unknownFilter (id : String)
  | unknownAction (id : String)
  /-- A report on an action that has ended. -/
  | actionEnded (id : ActionId) (status : ActionStatus)
  | cleanupFailed (rollouts : Nat)
deriving DecidableEq, Repr

namespace RequestError

/-- What an operator is told. -/
def message : RequestError → String
  | filter fault => fault.message
  | store e => e.message
  | rollout e => e.message
  | number fault => fault.message
  | unknownWord what word => s!"unknown {what} '{word}'"
  | malformedCondition word =>
    s!"condition '{word}' must look like threshold:<percent> or count:<n>"
  | thresholdTooHigh percent => s!"threshold {percent} is above 100"
  | unknownCondition kind => s!"unknown condition kind '{kind}'"
  | noGroups => "one of --groups, --group-count or --group is required"
  | malformedStart word => s!"start '{word}' must be manual, auto or a unix time"
  | unknownTarget id => s!"target {id} not found"
  | unknownFilter id => s!"filter @{id} not found"
  | unknownAction id => s!"action {id} not found"
  | actionEnded id status => s!"action {id} is already {Named.name status}"
  | cleanupFailed rollouts => s!"cleanup failed for {rollouts} rollout(s), see log"

end RequestError

end StagedRollout
