/-
# Rollouts

A rollout brings one distribution to a set of devices in stages.  It runs through the states of
`RolloutState`; its groups are the stages, and this row holds what they have in common.
-/
import StagedRollout.Text.Keyword
import StagedRollout.Text.Pad

namespace StagedRollout

/-- Identifies a rollout: the name its operator chose. -/
abbrev RolloutId := String

/-- Identifies a group: its rollout and its place among the rollout's groups. -/
abbrev GroupId := String

/-- Identifies an action: its group and its device. -/
abbrev ActionId := String

/-- Identifies a device. -/
abbrev TargetId := String

/-- Where a rollout stands. -/
inductive RolloutState where
  | creating
  | waitingForApproval
  | approvalDenied
  | ready
  | starting
  | running
  | paused
  | stopped
  | finished
  | error
  | deleting
  | deleted
deriving DecidableEq, Repr, Inhabited

namespace RolloutState

instance : Named RolloutState where
  choices := [creating, waitingForApproval, approvalDenied, ready, starting, running, paused,
    stopped, finished, error, deleting, deleted]
  name
    | creating => "creating"
    | waitingForApproval => "waiting_for_approval"
    | approvalDenied => "approval_denied"
    | ready => "ready"
    | starting => "starting"
    | running => "running"
    | paused => "paused"
    | stopped => "stopped"
    | finished => "finished"
    | error => "error"
    | deleting => "deleting"
    | deleted => "deleted"
  mem_choices a := by cases a <;> simp
  name_injective a b := by cases a <;> cases b <;> simp

/-- No further progression happens from these states. -/
def isTerminal : RolloutState → Bool
  | approvalDenied | stopped | finished | error | deleting | deleted => true
  | _ => false

/-- The states that a scheduler acts on. -/
def isSchedulable : RolloutState → Bool
  | ready | starting | running => true
  | _ => false

end RolloutState

/-- What happens to a rollout when a group meets its error condition. -/
inductive ErrorAction where
  | pause
  | stop
deriving DecidableEq, Repr, Inhabited

instance : Named ErrorAction where
  choices := [.pause, .stop]
  name
    | .pause => "pause"
    | .stop => "stop"
  mem_choices a := by cases a <;> simp
  name_injective a b := by cases a <;> cases b <;> simp

/-- Who starts a rollout that is ready. -/
inductive StartPolicy where
  /-- An operator. -/
  | manual
  /-- The scheduler, once a time in seconds has come. -/
  | scheduled (startAt : Nat)
  /-- The scheduler, at once. -/
  | auto
deriving DecidableEq, Repr, Inhabited

namespace StartPolicy

/-- Whether the scheduler may start a ready rollout at a time in seconds. -/
def isDue (policy : StartPolicy) (now : Nat) : Bool :=
  match policy with
  | manual => false
  | scheduled startAt => decide (startAt ≤ now)
  | auto => true

end StartPolicy

/-- How the devices of a rollout are bound to it. -/
inductive ResolveMode where
  /-- Once, at its creation. -/
  | snapshot
  /-- Again while it runs; devices that match anew join the last group. -/
  | live
deriving DecidableEq, Repr, Inhabited

instance : Named ResolveMode where
  choices := [.snapshot, .live]
  name
    | .snapshot => "snapshot"
    | .live => "live"
  mem_choices a := by cases a <;> simp
  name_injective a b := by cases a <;> cases b <;> simp

/-- How urgently a device installs. -/
inductive ActionType where
  | forced
  | soft
  | downloadOnly
deriving DecidableEq, Repr, Inhabited

instance : Named ActionType where
  choices := [.forced, .soft, .downloadOnly]
  name
    | .forced => "forced"
    | .soft => "soft"
    | .downloadOnly => "download_only"
  mem_choices a := by cases a <;> simp
  name_injective a b := by cases a <;> cases b <;> simp

/-- A staged deployment.  Times are in seconds. -/
structure Rollout where
  id : RolloutId
  name : String
  description : Option String
  /-- The filter its devices were resolved from. -/
  targetFilter : String
  /-- What every device installs. -/
  distribution : String
  /-- The groups in progression order. -/
  groupIds : List GroupId
  /-- The number of devices over all groups. -/
  totalTargets : Nat
  state : RolloutState
  /-- The error action of groups that have none of their own. -/
  errorAction : ErrorAction
  startPolicy : StartPolicy
  resolveMode : ResolveMode
  actionType : ActionType
  /-- Rollouts of more weight are scheduled first. -/
  weight : Nat
  /-- Whether it is on its way out or gone. -/
  deleted : Bool
  /-- Why it was paused or given up. -/
  lastError : Option String
  createdAt : Nat
  updatedAt : Nat
  /-- When its filter was last resolved; zero if never. -/
  lastResolvedAt : Nat
deriving DecidableEq, Repr, Inhabited

end StagedRollout
