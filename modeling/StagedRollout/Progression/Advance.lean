/-
# Advancing a rollout

One step of a scheduler for one rollout: a rollout that is due starts, the group whose turn it
is starts, the running group is judged, and the walk goes on as long as groups end at once.  The
caller holds the rollout's lease, and every write stands behind that lease's fence.
-/
import StagedRollout.Progression.Issue
import StagedRollout.Rollout.Verdict

namespace StagedRollout.Progression

/-- What one step did. -/
structure Advance where
  before : RolloutState
  after : RolloutState
  groupsStarted : Nat
  groupsSettled : Nat
deriving DecidableEq, Repr

namespace Advance

/-- A step that has done nothing yet. -/
def idle (state : RolloutState) : Advance := ⟨state, state, 0, 0⟩

/-- Whether the step changed anything. -/
def progressed (a : Advance) : Bool :=
  decide (a.before ≠ a.after) || decide (0 < a.groupsStarted) || decide (0 < a.groupsSettled)

end Advance

/-- How the walk comes to a group. -/
inductive Entry where
  /-- The group has ended and lets the next one start. -/
  | passed
  /-- The walk ends here. -/
  | blocked
  /-- The group is running, and was started just now or not. -/
  | running (g : RolloutGroup) (started : Bool)

/-- Comes to a group, given the group before it.  A running group may have members without an
action, where a live resolution was cut off between its two writes; they get theirs here. -/
def enter (fence : Option Fence) (now : Nat) (previous : Option RolloutGroup) (r : Rollout)
    (g : RolloutGroup) : Operation RolloutError Entry :=
  match g.state with
  | .finished => return .passed
  | .error => return if g.errorAcknowledged then .passed else .blocked
  | .scheduled | .ready =>
    if previous.all RolloutGroup.releasesSuccessor then do
      return .running (← startGroup fence r g now) true
    else return .blocked
  | .running =>
    if g.counts.total < g.targetCount then do
      return .running (← issue fence r g g.targets now).group false
    else return .running g false

/-- What is recorded when a group fails. -/
def failureText (g : RolloutGroup) : String :=
  s!"group {g.index} met its error condition " ++
    s!"({g.counts.finishedError} of {g.counts.total} actions failed)"

/-- Writes a rollout. -/
def saveRollout (fence : Option Fence) (r : Rollout) : Operation RolloutError Unit :=
  Operation.mapError .persistence (Operation.commit fence (Transaction.putRollout r))

/-- Walks over the groups of a running rollout, given the group before them. -/
def walk (fence : Option Fence) (now : Nat) :
    Option RolloutGroup → List RolloutGroup → Rollout → Advance →
      Operation RolloutError (Rollout × Advance)
  | _, [], r, adv => do
    -- every group was passed, so there is nothing left to do
    let r ← Operation.ofExcept (r.apply .allGroupsFinished now)
    saveRollout fence r
    return (r, adv)
  | previous, g :: rest, r, adv => do
    match ← enter fence now previous r g with
    | .passed => walk fence now (some g) rest r adv
    | .blocked => return (r, adv)
    | .running g started =>
      let adv := if started then { adv with groupsStarted := adv.groupsStarted + 1 } else adv
      match g.settle? g.verdict now with
      | none => return (r, adv)
      | some settled =>
        let adv := { adv with groupsSettled := adv.groupsSettled + 1 }
        if g.verdict = .failed then
          -- the failed group and the rollout that it holds up are never seen apart
          let r ← Operation.ofExcept (r.apply (.groupFailed g.errorAction) now)
          let r := { r with lastError := some (failureText g) }
          Operation.mapError .persistence
            (Operation.commit fence (Transaction.putRolloutWithGroups r [settled]))
          return (r, adv)
        else
          Operation.mapError .persistence (Operation.commit fence (Transaction.putGroup settled))
          walk fence now (some settled) rest r adv

/-- Starts a rollout that is ready, if it is due. -/
def begin? (fence : Option Fence) (now : Nat) (r : Rollout) :
    Operation RolloutError (Option Rollout) := do
  if r.state = .ready then
    if r.startPolicy.isDue now then
      let r ← Operation.ofExcept (r.apply .start now)
      saveRollout fence r
      return some r
    else return none
  else return some r

/-- Takes up a rollout that is starting. -/
def takeUp (fence : Option Fence) (now : Nat) (r : Rollout) : Operation RolloutError Rollout := do
  if r.state = .starting then
    let r ← Operation.ofExcept (r.apply .started now)
    saveRollout fence r
    return r
  else return r

/-- Reads a rollout that has to exist. -/
def requireRollout (id : RolloutId) : Operation RolloutError Rollout := do
  match ← Operation.mapError .persistence (Operation.read fun s => Table.read s.rollouts id) with
  | some r => return r
  | none => throw (.notFound id)

/-- Drives a rollout as far as its state allows. -/
def advance (fence : Option Fence) (id : RolloutId) (now : Nat) :
    Operation RolloutError Advance := do
  let r ← requireRollout id
  let idle := Advance.idle r.state
  if r.deleted then return idle
  match ← begin? fence now r with
  | none => return idle
  | some r =>
    let r ← takeUp fence now r
    if r.state = .running then
      let groups ← Operation.mapError .persistence (Operation.read fun s => s.listGroups r.id)
      let (r, adv) ← walk fence now none groups r idle
      return { adv with after := r.state }
    else return { idle with after := r.state }

end StagedRollout.Progression
