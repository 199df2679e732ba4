/-
# Cleanup

The groups and actions of deleted rollouts are reclaimed, action by action.  An action that its
device may still be working on is kept, and with it its group; a rollout without groups is gone.
A pass that fails for a rollout goes on with the next one, and the next pass finishes the work.
-/
import StagedRollout.Program
import StagedRollout.Rollout.Error
import StagedRollout.Store.Membership

namespace StagedRollout

/-- What a cleanup pass did. -/
structure CleanupReport where
  rolloutsPurged : Nat
  groupsDeleted : Nat
  actionsDeleted : Nat
  /-- Actions that were kept because their devices may still be working on them. -/
  actionsRetained : Nat
  failed : Nat
deriving DecidableEq, Repr

namespace CleanupReport

/-- A pass that has done nothing. -/
def zero : CleanupReport := ⟨0, 0, 0, 0, 0⟩

/-- Whether the pass removed nothing. -/
def isNoop (r : CleanupReport) : Bool :=
  r.rolloutsPurged == 0 && r.groupsDeleted == 0 && r.actionsDeleted == 0

end CleanupReport

namespace Cleanup

/-- Whether an action counts as in flight: it has not ended, and its last report is less than
`grace` seconds old. -/
def isInFlight (grace now : Nat) (a : Action) : Bool :=
  !a.status.isTerminal && decide (now - a.lastStatusAt < grace)

/-- Work of a pass. -/
abbrev Pass := StateT CleanupReport Program

/-- Work of a pass on one rollout.  The report counts also what was done before a failure. -/
abbrev Attempt := ExceptT SchedulerError Pass

/-- Reads the store. -/
def read {α : Type} (view : Store → Except StoreError α) : Attempt α :=
  ExceptT.mk (StateT.lift (Operation.mapError .store (Operation.read view)))

/-- Runs a transaction. -/
def commit {α : Type} (t : Transaction α) : Attempt α :=
  ExceptT.mk (StateT.lift (Operation.mapError .store (Operation.commit none t)))

/-- Counts something that was done. -/
def count (f : CleanupReport → CleanupReport) : Attempt Unit := ExceptT.lift (modify f)

/-- Removes the actions of a group that are not in flight, and tells whether any is left. -/
def reclaimActions (grace now : Nat) : List Action → Attempt Bool
  | [] => return false
  | a :: rest => do
    if isInFlight grace now a then
      -- the rest is looked at all the same, only the group stays
      count fun r => { r with actionsRetained := r.actionsRetained + 1 }
      let _ ← reclaimActions grace now rest
      return true
    else
      if ← commit (Transaction.deleteAction a.id) then
        count fun r => { r with actionsDeleted := r.actionsDeleted + 1 }
      reclaimActions grace now rest

/-- Removes the groups of a rollout that have no action in flight. -/
def reclaimGroups (grace now : Nat) : List RolloutGroup → Attempt Unit
  | [] => return ()
  | g :: rest => do
    let actions ← read fun s => s.listActions g.id
    if ← reclaimActions grace now actions then reclaimGroups grace now rest
    else
      if ← commit (Transaction.deleteGroup g.id) then
        count fun r => { r with groupsDeleted := r.groupsDeleted + 1 }
      reclaimGroups grace now rest

/-- Reclaims a deleted rollout. -/
def reclaim (grace now : Nat) (r : Rollout) : Attempt Unit := do
  reclaimGroups grace now (← read fun s => s.listGroups r.id)
  if (← read fun s => s.listGroups r.id).isEmpty then
    let gone ← ExceptT.mk (pure ((r.apply .purged now).mapError .rollout))
    commit (Transaction.purgeRollout { gone with groupIds := [] })
    count fun c => { c with rolloutsPurged := c.rolloutsPurged + 1 }

/-- Reclaims deleted rollouts one after the other. -/
def reclaimAll (grace now : Nat) : List Rollout → Pass Unit
  | [] => return ()
  | r :: rest => do
    match ← ExceptT.run (reclaim grace now r) with
    | .ok () => reclaimAll grace now rest
    | .error _ =>
      modify fun c => { c with failed := c.failed + 1 }
      reclaimAll grace now rest

/-- Whether a rollout waits to be reclaimed. -/
def isDoomed (r : Rollout) : Bool := r.deleted && decide (r.state = .deleting)

/-- One pass at a time in seconds, with a grace in seconds. -/
def pass (grace now : Nat) : Program CleanupReport := do
  match ← Program.look Store.listRollouts with
  | .ok rollouts =>
    let ((), report) ← (reclaimAll grace now (rollouts.filter isDoomed)).run .zero
    return report
  | .error _ => return { CleanupReport.zero with failed := 1 }

/-- Passes by the clock. -/
def runPasses (grace : Nat) : Nat → Program Unit
  | 0 => return ()
  | ticks + 1 => do
    let now ← Program.nowSeconds
    let _ ← pass grace now
    runPasses grace ticks

end Cleanup

end StagedRollout
