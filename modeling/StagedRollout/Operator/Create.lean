/-
# Creating rollouts

A new rollout is checked as a whole before anything is stored: its name, its conditions, its
filter, its groups and the quota.
-/
import StagedRollout.Operator.Resolver
import StagedRollout.Rollout.Partition
import StagedRollout.Rollout.Verdict

namespace StagedRollout

/-- Everything that makes a rollout. -/
structure NewRollout where
  name : String
  description : Option String
  targetFilter : String
  distribution : String
  groups : GroupSpec
  successCondition : Condition
  errorCondition : Option Condition
  errorAction : ErrorAction
  startPolicy : StartPolicy
  resolveMode : ResolveMode
  actionType : ActionType
  weight : Nat
  /-- Overrides whether new rollouts wait for approval. -/
  approvalRequired : Option Bool
deriving DecidableEq, Repr

namespace NewRollout

/-- A rollout with a name, a filter, a distribution and groups, and nothing else chosen. -/
def standard (name targetFilter distribution : String) (groups : GroupSpec) : NewRollout where
  name := name
  description := none
  targetFilter := targetFilter
  distribution := distribution
  groups := groups
  successCondition := .threshold 100
  errorCondition := none
  errorAction := .pause
  startPolicy := .manual
  resolveMode := .snapshot
  actionType := .forced
  weight := 0
  approvalRequired := none

/-- The characters that may begin a name. -/
def isNameStart (c : Char) : Bool := ('a' ≤ c && c ≤ 'z') || ('0' ≤ c && c ≤ '9')

/-- The characters of a name. -/
def isNameChar (c : Char) : Bool := isNameStart c || c == '.' || c == '_' || c == '-'

/-- Whether a name may be a rollout's: at most 64 bytes of small letters, digits, points,
underscores and hyphens, with a letter or a digit in front. -/
def isName (name : String) : Bool :=
  -- other characters than those of one byte are refused below
  decide (name.utf8ByteSize ≤ 64) &&
    match name.toList with
    | [] => false
    | c :: cs => isNameStart c && cs.all isNameChar

/-- Refuses a name. -/
def checkName (name : String) : Except RolloutError Unit :=
  if isName name then .ok () else .error (.invalidName name)

/-- Refuses a percentage above 100. -/
def checkCondition (role : ConditionRole) (c : Condition) : Except RolloutError Unit :=
  match c with
  | .threshold percent =>
    if 100 < percent then .error (.invalidGroups (.thresholdTooHigh role percent)) else .ok ()
  | .count _ => .ok ()

/-- Refuses what can be refused without looking at the store. -/
def check (n : NewRollout) : Except RolloutError Unit := do
  checkName n.name
  checkCondition .success n.successCondition
  match n.errorCondition with
  | some c => checkCondition .error c
  | none => return ()

/-- The group with an index and its members. -/
def group (n : NewRollout) (index : Nat) (targets : List TargetId) : RolloutGroup where
  id := RolloutGroup.idOf n.name index
  rolloutId := n.name
  index := index
  name := s!"group-{index + 1}"
  targets := targets
  targetCount := targets.length
  successCondition := n.successCondition
  errorCondition := n.errorCondition
  errorAction := n.errorAction
  state := .scheduled
  outcome := none
  counts := .zero
  errorAcknowledged := false
  startedAt := none
  finishedAt := none

/-- The groups from an index on. -/
def groupsFrom (n : NewRollout) : Nat → List (List TargetId) → List RolloutGroup
  | _, [] => []
  | index, plan :: rest => n.group index plan :: groupsFrom n (index + 1) rest

/-- The rollout with its groups while it is being made. -/
def rollout (n : NewRollout) (groups : List RolloutGroup) (totalTargets now : Nat) : Rollout where
  id := n.name
  name := n.name
  description := n.description
  targetFilter := n.targetFilter
  distribution := n.distribution
  groupIds := groups.map (·.id)
  totalTargets := totalTargets
  state := .creating
  errorAction := n.errorAction
  startPolicy := n.startPolicy
  resolveMode := n.resolveMode
  actionType := n.actionType
  weight := n.weight
  deleted := false
  lastError := none
  createdAt := now
  updatedAt := now
  lastResolvedAt := now

end NewRollout

end StagedRollout
