/-
# Operator commands

An operator creates rollouts and moves them between states.  A command on a rollout is given
under the rollout's lease, so it never falls between the writes of a scheduler that works on the
same rollout; what it writes stands behind the lease's fence.
-/
import StagedRollout.Operator.Create
import StagedRollout.Progression.Advance
import StagedRollout.Store.Lease

namespace StagedRollout

open Operation (commit read mapError)

/-- Somebody who gives commands. -/
structure Operator where
  /-- The fence behind which the operator itself writes, if any. -/
  fence : Option Fence
  quota : Quota
  /-- Whether new rollouts wait for approval. -/
  approvalRequired : Bool
  /-- How long the operator's leases last, in milliseconds. -/
  leaseTtl : Nat
  /-- The name under which the operator holds leases. -/
  owner : String

namespace Operator

/-- An operator under a configuration. -/
def ofConfig (fence : Option Fence) (c : Config) (owner : String) : Operator :=
  ⟨fence, c.quota, c.approvalRequired, c.scheduler.leaseMillis, owner⟩

/-! ## Queries -/

/-- A rollout that has to exist. -/
def get (id : RolloutId) : Operation RolloutError Rollout := Progression.requireRollout id

/-- All rollouts. -/
def list : Operation RolloutError (List Rollout) :=
  mapError .persistence (read Store.listRollouts)

/-- The groups of a rollout. -/
def groups (id : RolloutId) : Operation RolloutError (List RolloutGroup) := do
  let _ ← get id
  mapError .persistence (read fun s => s.listGroups id)

/-- The actions of a rollout. -/
def actions (id : RolloutId) : Operation RolloutError (List Action) := do
  let _ ← get id
  mapError .persistence (read fun s => s.listActions id)

/-! ## Creation -/

/-- The error of a creation that the store refused. -/
def creationError : StoreError → RolloutError
  | .conflict id => .alreadyExists id
  | e => .persistence e

/-- Resolves, splits and stores a new rollout.  If it is refused, nothing is stored. -/
def create (m : Operator) (resolver : Resolver) (n : NewRollout) :
    Operation RolloutError Rollout := do
  Operation.ofExcept n.check
  if (← mapError .persistence (read fun s => Table.read s.rollouts n.name)).isSome then
    throw (.alreadyExists n.name)
  let targets ← resolver n.targetFilter
  let plans ← Operation.ofExcept (partition targets n.groups m.quota)
  let now ← Operation.nowSeconds
  let groups := n.groupsFrom 0 plans
  let approval := n.approvalRequired.getD m.approvalRequired
  let r ← Operation.ofExcept ((n.rollout groups targets.size now).apply (.created approval) now)
  mapError creationError (commit m.fence (Transaction.createRollout r groups))
  return r

/-! ## Commands -/

/-- Works on a rollout while holding its lease.  The lease is given up whatever comes of the
work. -/
def withLease {α : Type} (m : Operator) (id : RolloutId)
    (work : Fence → Rollout → Operation RolloutError α) : Operation RolloutError α := do
  let key := Lease.rolloutKey id
  let now ← Operation.now
  match ← mapError .persistence
    (commit m.fence (Transaction.acquireLease key m.owner now m.leaseTtl)) with
  | .held l => throw (.busy id l.owner)
  | .granted l =>
    let fence : Fence := ⟨key, m.owner, l.fencing⟩
    let result ← ExceptT.lift (ExceptT.run (get id >>= work fence))
    -- a lease that cannot be given up runs out by itself
    let _ ← ExceptT.lift
      (ExceptT.run (commit m.fence (Transaction.releaseLease key m.owner l.fencing)))
    Operation.ofExcept result

/-- Moves a rollout by a command. -/
def command (m : Operator) (id : RolloutId) (c : Command) : Operation RolloutError Rollout :=
  m.withLease id fun fence r => do
    let now ← Operation.nowSeconds
    let r ← Operation.ofExcept (r.apply c now)
    mapError .persistence (commit (some fence) (Transaction.putRollout r))
    return r

/-- Lets a rollout that waits for approval run. -/
def approve (m : Operator) (id : RolloutId) : Operation RolloutError Rollout :=
  m.command id .approve

/-- Refuses a rollout that waits for approval. -/
def deny (m : Operator) (id : RolloutId) : Operation RolloutError Rollout := m.command id .deny

/-- Hands a rollout to the schedulers. -/
def start (m : Operator) (id : RolloutId) : Operation RolloutError Rollout := m.command id .start

/-- Keeps further groups from starting. -/
def pause (m : Operator) (id : RolloutId) : Operation RolloutError Rollout := m.command id .pause

/-- Marks a rollout as deleted; its groups and actions are reclaimed later. -/
def delete (m : Operator) (id : RolloutId) : Operation RolloutError Rollout :=
  m.command id .delete

/-- The failed groups that are acknowledged now. -/
def acknowledged (groups : List RolloutGroup) : List RolloutGroup :=
  groups.filterMap fun g => if g.errorAcknowledged then none else g.acknowledge?

/-- Goes on with a paused rollout.  Groups whose failure paused it are acknowledged, which lets
the group behind them start. -/
def resume (m : Operator) (id : RolloutId) : Operation RolloutError Rollout :=
  m.withLease id fun fence r => do
    let now ← Operation.nowSeconds
    let r ← Operation.ofExcept (r.apply .resume now)
    let groups ← mapError .persistence (read fun s => s.listGroups id)
    mapError .persistence
      (commit (some fence) (Transaction.putRolloutWithGroups r (acknowledged groups)))
    return r

/-- Stops a rollout and asks devices to cancel its open actions. -/
def stop (m : Operator) (id : RolloutId) : Operation RolloutError Rollout :=
  m.withLease id fun fence r => do
    let now ← Operation.nowSeconds
    let r ← Operation.ofExcept (r.apply .stop now)
    let _ ← mapError .persistence (commit (some fence) (Transaction.stopRollout r now))
    return r

/-- Ends the running group now, whatever its conditions say. -/
def triggerNext (m : Operator) (id : RolloutId) : Operation RolloutError RolloutGroup :=
  m.withLease id fun fence r => do
    let refusal := RolloutError.invalidTransition id r.state .triggerNext
    if r.state ≠ .running then throw refusal
    let groups ← mapError .persistence (read fun s => s.listGroups id)
    match groups.find? fun g => decide (g.state = .running) with
    | none => throw refusal
    | some g =>
      let now ← Operation.nowSeconds
      let g := (g.trigger? now).getD g
      mapError .persistence (commit (some fence) (Transaction.putGroup g))
      return g

end Operator

end StagedRollout
