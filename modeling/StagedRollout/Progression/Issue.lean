/-
# Issuing actions

Starting a group issues one action for each of its members and tells the devices.  A device that
cannot be told finds its action when it asks for work, so a failed message changes nothing.
-/
import StagedRollout.Program
import StagedRollout.Rollout.Error
import StagedRollout.Store.Membership

namespace StagedRollout.Progression

/-- The action that brings a rollout to a member of one of its groups. -/
def newAction (r : Rollout) (g : RolloutGroup) (now : Nat) (t : TargetId) : Action where
  id := Action.idOf g.id t
  rolloutId := r.id
  groupId := g.id
  targetId := t
  distribution := r.distribution
  actionType := r.actionType
  status := .created
  weight := r.weight
  createdAt := now
  lastStatusAt := now

/-- Tells devices about their actions. -/
def notify : List Action → Program Unit
  | [] => return ()
  | a :: rest => do
    let _ ← Program.dispatch a
    notify rest

/-- Issues actions for devices in a group.  Devices that have one in the group are skipped. -/
def issue (fence : Option Fence) (r : Rollout) (g : RolloutGroup) (targets : List TargetId)
    (now : Nat) : Operation RolloutError Issued := do
  let actions := targets.map (newAction r g now)
  let issued ← Operation.mapError .persistence
    (Operation.commit fence (Transaction.issueActions g.id actions now))
  ExceptT.lift (notify issued.created)
  return issued

/-- Starts a group that waits.  A running group stays as it is. -/
def startGroup (fence : Option Fence) (r : Rollout) (g : RolloutGroup) (now : Nat) :
    Operation RolloutError RolloutGroup :=
  match g.state with
  | .scheduled | .ready => do return (← issue fence r g g.targets now).group
  | .running => return g
  | .finished | .error => throw (.invalidTransition r.id r.state (.startGroup g.index))

end StagedRollout.Progression
