/-
# Locks on rollouts

A scheduler works on a rollout under a lock.  A lock hands out guards; a guard names the holding
of a lease, and writes behind the guard's fence reach the store only while that holding lasts.
The store's own lock keeps its leases in the lease table.
-/
import StagedRollout.Program
import StagedRollout.Rollout.Error
import StagedRollout.Store.Lease

namespace StagedRollout

/-- The holding of a rollout's lease. -/
structure Guard where
  rolloutId : RolloutId
  key : String
  owner : String
  fencing : Nat
  /-- When the lease runs out, in milliseconds. -/
  expiresAt : Nat
deriving DecidableEq, Repr

/-- The fence that writes under a guard have to pass. -/
def Guard.fence (g : Guard) : Fence := ⟨g.key, g.owner, g.fencing⟩

/-- How schedulers take and give up rollouts. -/
structure RolloutLock where
  /-- Takes a rollout, or fails because somebody else has it. -/
  acquire : RolloutId → Operation SchedulerError Guard
  /-- Extends a holding, and tells whether it was still there. -/
  renew : Guard → Operation SchedulerError (Bool × Guard)
  /-- Gives a rollout up. -/
  release : Guard → Operation SchedulerError Unit

namespace RolloutLock

/-- A transaction on leases. -/
def commit {α : Type} (t : Transaction α) : Operation SchedulerError α :=
  Operation.mapError .store (Operation.commit none t)

/-- Takes a rollout for an owner, for a time in milliseconds. -/
def acquireFor (owner : String) (ttl : Nat) (id : RolloutId) :
    Operation SchedulerError Guard := do
  let key := Lease.rolloutKey id
  let now ← Operation.now
  match ← commit (Transaction.acquireLease key owner now ttl) with
  | .granted l => return ⟨id, key, owner, l.fencing, l.expiresAt⟩
  | .held l => throw (.lockContention id l.owner)

/-- Extends a holding of an owner by a time in milliseconds. -/
def renewFor (owner : String) (ttl : Nat) (g : Guard) :
    Operation SchedulerError (Bool × Guard) := do
  let now ← Operation.now
  match ← commit (Transaction.renewLease g.key owner g.fencing now ttl) with
  | some l => return (true, { g with expiresAt := l.expiresAt })
  | none => return (false, g)

/-- Gives up a holding of an owner; one that is lost already is left alone. -/
def releaseFor (owner : String) (g : Guard) : Operation SchedulerError Unit := do
  let _ ← commit (Transaction.releaseLease g.key owner g.fencing)
  return ()

/-- The lock of an owner whose leases are kept in the store and last for a time in
milliseconds. -/
def ofStore (owner : String) (ttl : Nat) : RolloutLock where
  acquire := acquireFor owner ttl
  renew := renewFor owner ttl
  release := releaseFor owner

end RolloutLock

end StagedRollout
