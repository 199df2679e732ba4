/-
# Transitions of a rollout

The commands and events that move a rollout from one state to another, and the table of these
moves.  Every change of a rollout's state goes through `Rollout.apply`.
-/
import StagedRollout.Rollout.Basic

namespace StagedRollout

/-- A command or an event that moves a rollout. -/
inductive Command where
  /-- Its groups are made; it may have to wait for approval. -/
  | created (approvalRequired : Bool)
  | approve
  | deny
  | start
  /-- A scheduler took it up. -/
  | started
  | pause
  | resume
  | stop
  /-- A group met its error condition. -/
  | groupFailed (action : ErrorAction)
  /-- It failed too many times in a row. -/
  | retriesExhausted
  | allGroupsFinished
  | delete
  /-- None of its groups is left. -/
  | purged
deriving DecidableEq, Repr

instance : Named Command where
  choices := [.created false, .created true, .approve, .deny, .start, .started, .pause, .resume,
    .stop, .groupFailed .pause, .groupFailed .stop, .retriesExhausted, .allGroupsFinished,
    .delete, .purged]
  name
    | .created false => "created"
    | .created true => "created_gated"
    | .approve => "approve"
    | .deny => "deny"
    | .start => "start"
    | .started => "started"
    | .pause => "pause"
    | .resume => "resume"
    | .stop => "stop"
    | .groupFailed .pause => "group_failed_pause"
    | .groupFailed .stop => "group_failed_stop"
    | .retriesExhausted => "retries_exhausted"
    | .allGroupsFinished => "all_groups_finished"
    | .delete => "delete"
    | .purged => "purged"
  mem_choices c := by
    rcases c with (_ | _) | _ | _ | _ | _ | _ | _ | _ | (_ | _) | _ | _ | _ | _ <;> simp
  name_injective c d h := by
    rcases c with (_ | _) | _ | _ | _ | _ | _ | _ | _ | (_ | _) | _ | _ | _ | _ <;>
      rcases d with (_ | _) | _ | _ | _ | _ | _ | _ | _ | (_ | _) | _ | _ | _ | _ <;> simp_all

/-- A command as it is written in an error. -/
def Command.text : Command → String
  | .created _ => "complete creation"
  | .approve => "approve"
  | .deny => "deny"
  | .start => "start"
  | .started => "run"
  | .pause => "pause"
  | .resume => "resume"
  | .stop => "stop"
  | .groupFailed .pause => "pause on group error"
  | .groupFailed .stop => "stop on group error"
  | .retriesExhausted => "give up after retries"
  | .allGroupsFinished => "finish"
  | .delete => "delete"
  | .purged => "purge"

/-- Where a command takes a rollout from a state, or nothing where it is not accepted. -/
def RolloutState.next (source : RolloutState) (command : Command) : Option RolloutState :=
  match source, command with
  | .creating, .created true => some .waitingForApproval
  | .creating, .created false => some .ready
  | .waitingForApproval, .approve => some .ready
  | .waitingForApproval, .deny => some .approvalDenied
  | .ready, .start => some .starting
  | .starting, .started => some .running
  | .running, .pause => some .paused
  | .running, .groupFailed .pause => some .paused
  | .paused, .resume => some .running
  | .running, .stop => some .stopped
  | .paused, .stop => some .stopped
  | .starting, .stop => some .stopped
  | .running, .groupFailed .stop => some .error
  | .running, .retriesExhausted => some .error
  | .starting, .retriesExhausted => some .error
  | .running, .allGroupsFinished => some .finished
  | .deleting, .delete => none
  | .deleted, .delete => none
  | _, .delete => some .deleting
  | .deleting, .purged => some .deleted
  | _, _ => none

/-- The rollout behind a command that its state accepts.  Deleting sets the flag, starting and
resuming forget the last error. -/
def Rollout.apply? (r : Rollout) (command : Command) (now : Nat) : Option Rollout :=
  match r.state.next command with
  | none => none
  | some state =>
    some { r with
      state := state
      updatedAt := now
      deleted := if command = .delete then true else r.deleted
      lastError := if command = .resume ∨ command = .start then none else r.lastError }

theorem Rollout.apply?_eq_none_iff {r : Rollout} {command : Command} {now : Nat} :
    r.apply? command now = none ↔ r.state.next command = none := by
  unfold Rollout.apply?
  split <;> simp_all

theorem Rollout.state_apply? {r r' : Rollout} {command : Command} {now : Nat}
    (h : r.apply? command now = some r') : r.state.next command = some r'.state := by
  unfold Rollout.apply? at h
  split at h
  · simp at h
  · simp only [Option.some.injEq] at h
    simp_all [← h]

end StagedRollout
