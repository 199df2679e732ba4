/-
# Leases and fences

A lease gives its owner sole control of a key until it expires, in milliseconds.  Its token
tells one holding of the key from another.  A fence names a holding; a writer behind it may
change the store only while that holding lasts.
-/
import StagedRollout.Rollout.Basic

namespace StagedRollout

/-- Sole ownership of a key that expires.  Times are in milliseconds. -/
structure Lease where
  key : String
  owner : String
  /-- Grows with every grant to a new holder. -/
  fencing : Nat
  expiresAt : Nat
deriving DecidableEq, Repr, Inhabited

namespace Lease

/-- The key of the lease that guards a rollout. -/
def rolloutKey (id : RolloutId) : String := "rollout/" ++ id

/-- Whether a lease no longer counts. -/
def isExpired (l : Lease) (now : Nat) : Bool := decide (l.expiresAt ≤ now)

end Lease

/-- The holding of a lease that a writer must still have when it commits. -/
structure Fence where
  key : String
  owner : String
  token : Nat
deriving DecidableEq, Repr, Inhabited

/-- Whether a lease is still the holding that a fence names. -/
def Fence.accepts (f : Fence) (l : Lease) (now : Nat) : Bool :=
  l.owner == f.owner && l.fencing == f.token && !l.isExpired now

/-- The answer to an attempt to take a lease. -/
inductive LeaseGrant where
  | granted (lease : Lease)
  /-- Somebody else holds a lease that has not expired. -/
  | held (lease : Lease)
deriving DecidableEq, Repr

end StagedRollout
