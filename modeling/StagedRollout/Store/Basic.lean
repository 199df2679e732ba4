/-
# The store

Six tables and the transactions on them.  A transaction reads and changes the tables and either
ends with a value or is abandoned; an abandoned transaction leaves the store as it was.  A
transaction behind a fence looks at the fence's lease first.
-/
import StagedRollout.Fleet.Target
import StagedRollout.Rollout.Group
import StagedRollout.Store.Table

namespace StagedRollout

/-- All rows. -/
structure Store where
  rollouts : Table Rollout
  groups : Table RolloutGroup
  actions : Table Action
  targets : Table Target
  filters : Table SavedFilter
  leases : Table Lease
deriving DecidableEq, Repr

/-- A store without rows. -/
def Store.empty : Store := ⟨.empty, .empty, .empty, .empty, .empty, .empty⟩

instance : Inhabited Store := ⟨.empty⟩

/-- What a transaction does to a store, and the value that it ends with. -/
abbrev Transaction (α : Type) := StateT Store (Except StoreError) α

/-- Whether a write behind a fence may go on at a time in milliseconds. -/
def Fence.check (f : Fence) (now : Nat) (s : Store) : Except StoreError Unit :=
  match Table.read s.leases f.key with
  | .error e => .error e
  | .ok none => .error (.leaseMissing f.key)
  | .ok (some l) => if f.accepts l now then .ok () else .error (.leaseLost f l)

/-- Whether a write may go on at a time in milliseconds; without a fence it always may. -/
def checkFence (fence : Option Fence) (now : Nat) (s : Store) : Except StoreError Unit :=
  match fence with
  | none => .ok ()
  | some f => f.check now s

/-- Runs a transaction, behind a fence if there is one, at a time in milliseconds.  The store is
changed only if the transaction ends with a value. -/
def Store.commit {α : Type} (s : Store) (fence : Option Fence) (now : Nat) (t : Transaction α) :
    Except StoreError α × Store :=
  match checkFence fence now s with
  | .error e => (.error e, s)
  | .ok () =>
    match t s with
    | .error e => (.error e, s)
    | .ok (a, s') => (.ok a, s')

theorem Store.commit_error {α : Type} {s s' : Store} {fence : Option Fence} {now : Nat}
    {t : Transaction α} {e : StoreError} (h : s.commit fence now t = (.error e, s')) :
    s' = s := by
  unfold Store.commit at h
  split at h
  · simp_all
  · split at h <;> simp_all

/-! ## Reading -/

namespace Store

/-- All rollouts in id order. -/
def listRollouts (s : Store) : Except StoreError (List Rollout) := Table.list s.rollouts ""

/-- The groups of a rollout in progression order. -/
def listGroups (s : Store) (rollout : RolloutId) : Except StoreError (List RolloutGroup) :=
  Table.list s.groups (rollout ++ ":")

/-- The actions of a group, or of a rollout, in id order. -/
def listActions (s : Store) (parent : String) : Except StoreError (List Action) :=
  Table.list s.actions (parent ++ ":")

/-- The actions for a device over all rollouts. -/
def listActionsForTarget (s : Store) (target : TargetId) : Except StoreError (List Action) :=
  (Table.list s.actions "").map fun actions => actions.filter fun a => a.targetId == target

/-- All devices in id order. -/
def listTargets (s : Store) : Except StoreError (List Target) := Table.list s.targets ""

/-- All saved filters in id order. -/
def listFilters (s : Store) : Except StoreError (List SavedFilter) := Table.list s.filters ""

end Store

namespace Transaction

/-- The value under a key of a table. -/
def read {α : Type} (table : Store → Table α) (key : String) : Transaction (Option α) := do
  let s ← get
  Table.read (table s) key

/-- The value under a key of a table that has to be there. -/
def require {α : Type} (table : Store → Table α) (kind : RowKind) (key : String) :
    Transaction α := do
  match ← read table key with
  | some a => return a
  | none => throw (.notFound kind key)

/-! ## Writing single rows -/

/-- Writes a rollout. -/
def putRollout (r : Rollout) : Transaction Unit :=
  modify fun s => { s with rollouts := Table.put s.rollouts r.id r }

/-- Writes a group whole. -/
def writeGroup (g : RolloutGroup) : Transaction Unit :=
  modify fun s => { s with groups := Table.put s.groups g.id g }

/-- Writes an action. -/
def writeAction (a : Action) : Transaction Unit :=
  modify fun s => { s with actions := Table.put s.actions a.id a }

/-- Writes a lease under a key. -/
def writeLease (key : String) (l : Lease) : Transaction Unit :=
  modify fun s => { s with leases := Table.put s.leases key l }

/-- A group that was read earlier with the counters and the members that are stored now. -/
def withStored (stored : Option RolloutGroup) (g : RolloutGroup) : RolloutGroup :=
  match stored with
  | some old =>
    { g with counts := old.counts, targets := old.targets, targetCount := old.targetCount }
  | none => g

/-- Writes the progress of a group.  Counters and members of a stored group are kept, because
only action reports and added devices change them. -/
def putGroup (g : RolloutGroup) : Transaction Unit := do
  let stored ← read Store.groups g.id
  writeGroup (withStored stored g)

/-- Writes the progress of groups. -/
def putGroups : List RolloutGroup → Transaction Unit
  | [] => return ()
  | g :: rest => do
    putGroup g
    putGroups rest

/-- Writes a rollout and the progress of some of its groups. -/
def putRolloutWithGroups (r : Rollout) (groups : List RolloutGroup) : Transaction Unit := do
  putRollout r
  putGroups groups

/-- Writes a new rollout with its groups. -/
def createRollout (r : Rollout) (groups : List RolloutGroup) : Transaction Unit := do
  let s ← get
  if Table.has s.rollouts r.id then throw (.conflict r.id)
  putRollout r
  -- the groups are new with their rollout, so nothing stored is kept
  modify fun s => { s with groups := groups.foldl (fun t g => Table.put t g.id g) s.groups }

/-- Removes a group and tells whether there was one. -/
def deleteGroup (id : GroupId) : Transaction Bool := do
  let s ← get
  set { s with groups := s.groups.erase id }
  return Table.has s.groups id

/-- Writes a device. -/
def putTarget (t : Target) : Transaction Unit :=
  modify fun s => { s with targets := Table.put s.targets t.id t }

/-- Removes a device and tells whether there was one. -/
def deleteTarget (id : TargetId) : Transaction Bool := do
  let s ← get
  set { s with targets := s.targets.erase id }
  return Table.has s.targets id

/-- Writes a saved filter. -/
def putFilter (f : SavedFilter) : Transaction Unit :=
  modify fun s => { s with filters := Table.put s.filters f.id f }

/-- Removes a saved filter and tells whether there was one. -/
def deleteFilter (id : String) : Transaction Bool := do
  let s ← get
  set { s with filters := s.filters.erase id }
  return Table.has s.filters id

/-- Writes a rollout that is gone and removes the lease that guarded it. -/
def purgeRollout (r : Rollout) : Transaction Unit := do
  putRollout r
  modify fun s => { s with leases := s.leases.erase (Lease.rolloutKey r.id) }

end Transaction

end StagedRollout
