/-
# Taking, extending and giving up leases

A lease that was given up or has run out stays in the table, so that its token is never used for
another holding.
-/
import StagedRollout.Store.Basic

namespace StagedRollout.Transaction

/-- Grants a key to an owner unless somebody else holds it.  A holder that asks again keeps its
token; any other grant takes the next one. -/
def acquireLease (key owner : String) (now ttl : Nat) : Transaction LeaseGrant := do
  let grant (token : Nat) : Transaction LeaseGrant := do
    let l : Lease := ⟨key, owner, token, now + ttl⟩
    writeLease key l
    return .granted l
  match ← read Store.leases key with
  | none => grant 1
  | some l =>
    if l.isExpired now then grant (l.fencing + 1)
    else if l.owner = owner then grant l.fencing
    else return .held l

/-- Extends a lease that its holder still has. -/
def renewLease (key owner : String) (token now ttl : Nat) : Transaction (Option Lease) := do
  match ← read Store.leases key with
  | none => return none
  | some l =>
    if l.owner = owner ∧ l.fencing = token ∧ l.isExpired now = false then
      let l := { l with expiresAt := now + ttl }
      writeLease key l
      return some l
    else return none

/-- Gives up a lease and tells whether the caller had it. -/
def releaseLease (key owner : String) (token : Nat) : Transaction Bool := do
  match ← read Store.leases key with
  | none => return false
  | some l =>
    if l.owner = owner ∧ l.fencing = token then
      writeLease key { l with expiresAt := 0 }
      return true
    else return false

end StagedRollout.Transaction
