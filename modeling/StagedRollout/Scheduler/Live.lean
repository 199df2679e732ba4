/-
# Live resolution

The filter of a live rollout is resolved again while it runs.  Devices that match anew join its
last group, unless that group has ended or would grow beyond the quota.  Adding the devices and
issuing their actions are two transactions; where only the first one happened, the next step of
the rollout issues the missing actions.
-/
import StagedRollout.Operator.Resolver
import StagedRollout.Progression.Advance
import StagedRollout.Rollout.Partition

namespace StagedRollout

/-- Resolves the filters of live rollouts again. -/
structure Live where
  resolver : Resolver
  quota : Quota
  /-- The seconds between two resolutions of a rollout. -/
  interval : Nat

namespace Live

/-- Whether a rollout's filter is to be resolved again at a time in seconds. -/
def isDue (live : Live) (r : Rollout) (now : Nat) : Bool :=
  decide (r.resolveMode = .live) && decide (r.state = .running) && !r.deleted &&
    decide (live.interval ≤ now - r.lastResolvedAt)

/-- Whether a device is in one of some groups. -/
def isMember (groups : List RolloutGroup) (t : TargetId) : Bool :=
  groups.any fun g => g.targets.contains t

/-- The devices that are in none of some groups, in order. -/
def fresh (groups : List RolloutGroup) (resolved : OrderedSet) : List TargetId :=
  resolved.members.filter fun t => !isMember groups t

/-- The last group, if it may take a number of devices. -/
def growing? (quota : Quota) (r : Rollout) (groups : List RolloutGroup) (added : Nat) :
    Option RolloutGroup :=
  match groups.getLast? with
  | none => none
  | some last =>
    if added = 0 ∨ last.state.isDone then none
    else
      match Partition.checkGrowth last.targetCount r.totalTargets added quota with
      | .ok () => some last
      | .error _ => none

/-- Adds devices to a group and gives them their actions if the group is running. -/
def extend (fence : Option Fence) (g : RolloutGroup) (targets : List TargetId) (now : Nat) :
    Operation RolloutError Rollout := do
  let (r, g) ← Operation.mapError .persistence
    (Operation.commit fence (Transaction.appendTargets g.id targets))
  if g.state = .running then
    let _ ← Progression.issue fence r g targets now
  return r

/-- Resolves a rollout's filter again if that is due, and tells how many devices joined. -/
def refresh (live : Live) (fence : Option Fence) (id : RolloutId) (now : Nat) :
    Operation RolloutError Nat := do
  let r ← Progression.requireRollout id
  if live.isDue r now then
    let groups ← Operation.mapError .persistence (Operation.read fun s => s.listGroups id)
    let added := fresh groups (← live.resolver r.targetFilter)
    match growing? live.quota r groups added.length with
    | none =>
      -- the next resolution waits its time also behind one that added nothing
      Progression.saveRollout fence { r with lastResolvedAt := now }
      return 0
    | some last =>
      -- the rollout's total has grown, so the row that was read first is out of date
      let r ← extend fence last added now
      Progression.saveRollout fence { r with lastResolvedAt := now }
      return added.length
  else return 0

end Live

end StagedRollout
