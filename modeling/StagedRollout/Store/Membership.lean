/-
# Members and actions of groups

The transactions that change which devices belong to a group and which actions it has.  They
keep a group's counters in step with its actions.
-/
import StagedRollout.Store.Basic

namespace StagedRollout

/-- Actions that were issued. -/
structure Issued where
  /-- The group behind it. -/
  group : RolloutGroup
  /-- The actions that did not exist before. -/
  created : List Action
deriving DecidableEq, Repr

/-- What became of a status report. -/
inductive ReportOutcome where
  | applied (action : Action) (source : ActionStatus)
  /-- The action had the status already. -/
  | unchanged (action : Action)
  /-- The action has ended. -/
  | rejected (action : Action)
  | unknown
deriving DecidableEq, Repr

namespace Transaction

/-- Members of a group and those that join it, in order and without repetition. -/
def joinTargets (members : List TargetId) : List TargetId → List TargetId
  | [] => members
  | t :: rest => joinTargets (if t ∈ members then members else members ++ [t]) rest

/-- Adds devices to a group and to its rollout's total.  Members are skipped. -/
def appendTargets (id : GroupId) (targets : List TargetId) :
    Transaction (Rollout × RolloutGroup) := do
  let group ← require Store.groups .group id
  let rollout ← require Store.rollouts .rollout group.rolloutId
  let members := joinTargets group.targets targets
  let added := members.length - group.targets.length
  let group := { group with targets := members, targetCount := group.targetCount + added }
  let rollout := { rollout with totalTargets := rollout.totalTargets + added }
  writeGroup group
  putRollout rollout
  return (rollout, group)

/-- Writes the actions that do not exist yet and counts them. -/
def issueEach : List Action → StatusCounts → Transaction (List Action × StatusCounts)
  | [], counts => return ([], counts)
  | a :: rest, counts => do
    if Table.has (← get).actions a.id then issueEach rest counts
    else
      writeAction a
      let (created, counts) ← issueEach rest (counts.increment a.status)
      return (a :: created, counts)

/-- A group that has actions: one that waited is running now. -/
def begun (g : RolloutGroup) (now : Nat) : RolloutGroup :=
  if g.state = .scheduled ∨ g.state = .ready then
    { g with state := .running, startedAt := some now }
  else g

/-- Adds actions to a group and starts the group.  Actions that exist are left alone, so issuing
the same actions again creates none. -/
def issueActions (id : GroupId) (actions : List Action) (now : Nat) : Transaction Issued := do
  let group ← require Store.groups .group id
  let (created, counts) ← issueEach actions group.counts
  let group := begun { group with counts := counts } now
  writeGroup group
  return ⟨group, created⟩

/-- Moves an action of a group in the group's counters, if the group exists. -/
def recount (id : GroupId) (f : StatusCounts → StatusCounts) : Transaction Unit := do
  match ← read Store.groups id with
  | some group => writeGroup { group with counts := f group.counts }
  | none => return ()

/-- Gives an action a new status. -/
def setStatus (a : Action) (status : ActionStatus) (now : Nat) : Transaction Action := do
  let a' := { a with status := status, lastStatusAt := now }
  writeAction a'
  recount a.groupId fun c => c.move a.status status
  return a'

/-- Applies a status report to an action. -/
def report (id : ActionId) (status : ActionStatus) (now : Nat) : Transaction ReportOutcome := do
  match ← read Store.actions id with
  | none => return .unknown
  | some a =>
    -- a device may repeat its last word, also the one that ended the action
    if a.status = status then return .unchanged a
    else if a.status.isTerminal then return .rejected a
    else return .applied (← setStatus a status now) a.status

/-- Asks devices to cancel actions. -/
def cancelEach (now : Nat) : List Action → Transaction Unit
  | [] => return ()
  | a :: rest => do
    let _ ← setStatus a .canceling now
    cancelEach now rest

/-- Asks devices to cancel every open action of a rollout and tells how many there were. -/
def cancelOpen (rollout : RolloutId) (now : Nat) : Transaction Nat := do
  let actions ← (← get).listActions rollout
  let opened := actions.filter fun a => a.status.isOpen
  cancelEach now opened
  return opened.length

/-- Writes a stopped rollout and asks devices to cancel its open actions, together. -/
def stopRollout (r : Rollout) (now : Nat) : Transaction Nat := do
  putRollout r
  cancelOpen r.id now

/-- Removes an action and its count, and tells whether there was one. -/
def deleteAction (id : ActionId) : Transaction Bool := do
  match ← read Store.actions id with
  | none => return false
  | some a =>
    modify fun s => { s with actions := s.actions.erase id }
    recount a.groupId fun c => c.decrement a.status
    return true

end Transaction

end StagedRollout
