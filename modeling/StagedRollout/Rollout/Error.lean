/-
# Rollout errors

Why an operation on rollouts is refused.
-/
import StagedRollout.Filter.Basic
import StagedRollout.Rollout.Transition
import StagedRollout.Store.Error

namespace StagedRollout

/-- Why a filter gives no devices. -/
inductive FilterFault where
  /-- It is no filter. -/
  | malformed (fault : TargetFilter.Fault)
  /-- It refers to a saved filter that does not exist. -/
  | unknownSaved (id : String)
deriving DecidableEq, Repr

/-- What an operator is told. -/
def FilterFault.message : FilterFault → String
  | .malformed fault => fault.message
  | .unknownSaved id => s!"no saved filter '{id}'"

/-- The two conditions of a group. -/
inductive ConditionRole where
  | success
  | error
deriving DecidableEq, Repr

/-- A role as it is written in an error. -/
def ConditionRole.text : ConditionRole → String
  | .success => "success"
  | .error => "error"

/-- Why groups cannot be made as they are defined. -/
inductive GroupFault where
  | noGroups
  | tooManyGroups (count limit : Nat)
  | zeroPercentage
  | percentageSum (sum : Nat)
  /-- A listed device is not in the resolved set. -/
  | foreignTarget (index : Nat) (target : TargetId)
  /-- A device is listed twice. -/
  | repeatedTarget (index : Nat) (target : TargetId)
  /-- Devices of the resolved set are not listed; `sample` holds the first of them. -/
  | uncovered (missing : Nat) (sample : List TargetId)
  | thresholdTooHigh (role : ConditionRole) (percent : Nat)
deriving DecidableEq, Repr

/-- What an operator is told. -/
def GroupFault.message : GroupFault → String
  | .noGroups => "at least one group is required"
  | .tooManyGroups count limit => s!"{count} groups exceed the limit of {limit}"
  | .zeroPercentage => "group percentages must be positive"
  | .percentageSum sum => s!"group percentages sum to {sum}, expected 100"
  | .foreignTarget index target =>
    s!"group {index}: target '{target}' does not match the rollout filter"
  | .repeatedTarget index target =>
    s!"group {index}: target '{target}' is already in an earlier group"
  | .uncovered missing sample =>
    s!"{missing} resolved targets are in no group (e.g. " ++ String.intercalate ", " sample ++ ")"
  | .thresholdTooHigh role percent => s!"{role.text} threshold {percent} is above 100"

/-- Which size is above its quota. -/
inductive QuotaFault where
  | group (index size limit : Nat)
  | rollout (size limit : Nat)
  | groupGrowth (size limit : Nat)
  | rolloutGrowth (size limit : Nat)
deriving DecidableEq, Repr

/-- What an operator is told. -/
def QuotaFault.message : QuotaFault → String
  | .group index size limit => s!"group {index} holds {size} actions, limit is {limit}"
  | .rollout size limit => s!"rollout holds {size} actions, limit is {limit}"
  | .groupGrowth size limit => s!"group would hold {size} actions, limit is {limit}"
  | .rolloutGrowth size limit => s!"rollout would hold {size} actions, limit is {limit}"

/-- What was asked of a rollout in a state that does not accept it. -/
inductive Deed where
  | command (c : Command)
  | triggerNext
  | startGroup (index : Nat)
deriving DecidableEq, Repr

/-- A deed as it is written in an error. -/
def Deed.text : Deed → String
  | .command c => c.text
  | .triggerNext => "trigger next group"
  | .startGroup index => s!"start group {index}"

/-- Why an operation on rollouts is refused. -/
inductive RolloutError where
  | invalidFilter (fault : FilterFault)
  | invalidGroups (fault : GroupFault)
  | quotaExceeded (fault : QuotaFault)
  | invalidTransition (rollout : RolloutId) (state : RolloutState) (deed : Deed)
  | invalidName (name : String)
  | notFound (rollout : RolloutId)
  | alreadyExists (rollout : RolloutId)
  /-- Somebody else holds the rollout's lease. -/
  | busy (rollout : RolloutId) (holder : String)
  | mailboxClosed
  | persistence (e : StoreError)
deriving DecidableEq, Repr

namespace RolloutError

/-- What an operator is told. -/
def message : RolloutError → String
  | invalidFilter fault => s!"invalid target filter: {fault.message}"
  | invalidGroups fault => s!"invalid group definition: {fault.message}"
  | quotaExceeded fault => s!"quota exceeded: {fault.message}"
  | invalidTransition rollout state deed =>
    s!"rollout {rollout}: cannot {deed.text} while {Named.name state}"
  | invalidName name => s!"invalid rollout name '{name}'"
  | notFound rollout => s!"not found: rollout {rollout}"
  | alreadyExists rollout => s!"already exists: rollout {rollout}"
  | busy rollout holder => s!"rollout {rollout} is busy (held by {holder})"
  | mailboxClosed => "status mailbox closed"
  | persistence e => s!"persistence error: {e.message}"

/-- Whether the same operation may succeed later. -/
def isTransient : RolloutError → Bool
  | persistence _ | busy _ _ => true
  | _ => false

end RolloutError

/-- The rollout behind a command, or the refusal of its state. -/
def Rollout.apply (r : Rollout) (command : Command) (now : Nat) : Except RolloutError Rollout :=
  match r.apply? command now with
  | some r' => .ok r'
  | none => .error (.invalidTransition r.id r.state (.command command))

/-- Why a scheduler's work on a rollout failed. -/
inductive SchedulerError where
  | lockContention (rollout : RolloutId) (holder : String)
  | rollout (e : RolloutError)
  | store (e : StoreError)
deriving DecidableEq, Repr

namespace SchedulerError

/-- What is logged. -/
def message : SchedulerError → String
  | lockContention id holder => s!"rollout {id} is locked by {holder}"
  | rollout e => s!"rollout error: {e.message}"
  | store e => s!"state store error: {e.message}"

/-- Whether a fenced write was turned away because the lease changed hands. -/
def isLeaseLost : SchedulerError → Bool
  | store e => e.isFenced
  | rollout (.persistence e) => e.isFenced
  | _ => false

/-- Whether the failure counts against the rollout's retries. -/
def isTransient : SchedulerError → Bool
  | lockContention _ _ => false
  | rollout e => e.isTransient
  | store _ => true

end SchedulerError

end StagedRollout
