/-
# Partition

How a resolved set of devices is split into groups.  Percentages and counts cut the sorted set
into runs whose sizes are rounded down; the last group takes what is left.  Explicit subsets have
to cover the set exactly.
-/
import StagedRollout.Config.Basic
import StagedRollout.Ordered.Set
import StagedRollout.Rollout.Error

namespace StagedRollout

/-- How the devices of a rollout are split. -/
inductive GroupSpec where
  /-- A share for each group; the shares sum to 100. -/
  | percentages (weights : List Nat)
  /-- A number of groups of the same size. -/
  | count (n : Nat)
  /-- The groups themselves, in progression order. -/
  | explicit (subsets : List (List TargetId))
deriving DecidableEq, Repr

namespace GroupSpec

/-- The number of groups. -/
def groupCount : GroupSpec → Nat
  | percentages weights => weights.length
  | count n => n
  | explicit subsets => subsets.length

end GroupSpec

namespace Partition

/-- How many groups a quota allows. -/
def groupLimit (quota : Quota) : Nat := min quota.maxGroups groupIndexLimit

/-- Refuses a number of groups. -/
def checkGroupCount (count : Nat) (quota : Quota) : Except GroupFault Unit :=
  if count = 0 then .error .noGroups
  else if groupLimit quota < count then .error (.tooManyGroups count (groupLimit quota))
  else .ok ()

/-- Runs of the given sizes; the last one takes what is left. -/
def split : List Nat → List TargetId → List (List TargetId)
  | [], _ => []
  | [_], targets => [targets]
  | size :: next :: sizes, targets =>
    targets.take size :: split (next :: sizes) (targets.drop size)

/-- The sum of numbers. -/
def total : List Nat → Nat
  | [] => 0
  | n :: rest => n + total rest

/-- The sum of percentages as it is counted, in 32 bits: it wraps around where they are too large,
which the sum of the groups' sizes, counted in 64 bits, does not. -/
def percentageSum (weights : List Nat) : Nat := total weights % (Text.max32 + 1)

/-- The part of a size that a percentage is, rounded down. -/
def share (size percent : Nat) : Nat := size * percent / 100

/-- The members of one subset behind those of the earlier ones. -/
def coverOne (targets : OrderedSet) (index : Nat) :
    List TargetId → OrderedMap Unit → Except GroupFault (OrderedMap Unit)
  | [], seen => .ok seen
  | t :: rest, seen =>
    if t ∉ targets then .error (.foreignTarget index t)
    else if (seen.find? t).isSome then .error (.repeatedTarget index t)
    else coverOne targets index rest (seen.insert t ())

/-- The members of all subsets. -/
def coverAll (targets : OrderedSet) :
    Nat → List (List TargetId) → OrderedMap Unit → Except GroupFault (OrderedMap Unit)
  | _, [], seen => .ok seen
  | index, subset :: rest, seen =>
    match coverOne targets index subset seen with
    | .error e => .error e
    | .ok seen => coverAll targets (index + 1) rest seen

/-- Refuses subsets that do not cover the set exactly. -/
def checkCover (targets : OrderedSet) (subsets : List (List TargetId)) :
    Except GroupFault Unit :=
  match coverAll targets 0 subsets .empty with
  | .error e => .error e
  | .ok seen =>
    if seen.entries.length = targets.size then .ok ()
    else
      let missing := targets.members.filter fun t => (seen.find? t).isNone
      .error (.uncovered (targets.size - seen.entries.length) (missing.take 5))

/-- The groups that a definition gives. -/
def groups (targets : OrderedSet) (spec : GroupSpec) (quota : Quota) :
    Except GroupFault (List (List TargetId)) := do
  checkGroupCount spec.groupCount quota
  match spec with
  | .percentages weights =>
    if 0 ∈ weights then throw .zeroPercentage
    if percentageSum weights ≠ 100 then throw (.percentageSum (percentageSum weights))
    return split (weights.map (share targets.size)) targets.members
  | .count n => return split (List.replicate n (targets.size / n)) targets.members
  | .explicit subsets =>
    checkCover targets subsets
    return subsets

/-- Refuses the first group that is too large, counted from `index`. -/
def checkGroupSizes (quota : Quota) : Nat → List (List TargetId) → Except QuotaFault Unit
  | _, [] => .ok ()
  | index, group :: rest =>
    if quota.maxActionsPerGroup < group.length then
      .error (.group index group.length quota.maxActionsPerGroup)
    else checkGroupSizes quota (index + 1) rest

/-- Refuses groups that are too large, or too large together. -/
def checkQuota (quota : Quota) (plans : List (List TargetId)) : Except QuotaFault Unit := do
  checkGroupSizes quota 0 plans
  let all := total (plans.map List.length)
  if quota.maxActions < all then throw (.rollout all quota.maxActions)

/-- Refuses a group that may not grow. -/
def checkGrowth (groupSize rolloutTotal added : Nat) (quota : Quota) : Except QuotaFault Unit :=
  if quota.maxActionsPerGroup < groupSize + added then
    .error (.groupGrowth (groupSize + added) quota.maxActionsPerGroup)
  else if quota.maxActions < rolloutTotal + added then
    .error (.rolloutGrowth (rolloutTotal + added) quota.maxActions)
  else .ok ()

end Partition

/-- Splits a set of devices into groups, within a quota. -/
def partition (targets : OrderedSet) (spec : GroupSpec) (quota : Quota) :
    Except RolloutError (List (List TargetId)) := do
  let plans ← (Partition.groups targets spec quota).mapError .invalidGroups
  (Partition.checkQuota quota plans).mapError .quotaExceeded
  return plans

end StagedRollout
