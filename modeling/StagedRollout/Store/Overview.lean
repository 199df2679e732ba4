/-
# Overviews of the store

Two views of a whole store in JSON: where every rollout stands, and all rows.  Each needs all
the rows that it shows, so one damaged row among them makes it fail.
-/
import StagedRollout.Json.Rows
import StagedRollout.Store.Basic

namespace StagedRollout

/-- The counters in the order of their statuses. -/
def StatusCounts.list (c : StatusCounts) : List Nat :=
  [c.created, c.running, c.download, c.canceling, c.canceled, c.finishedSuccess, c.finishedError]

/-- Where a group stands. -/
def RolloutGroup.overview (g : RolloutGroup) : Json :=
  .obj [("id", .str g.id), ("state", Named.toJson g.state),
    ("outcome", .ofOption Named.toJson g.outcome), ("targets", .nat g.targetCount),
    ("counts", .ofList .nat g.counts.list), ("acknowledged", .bool g.errorAcknowledged),
    ("started_at", .ofOption .nat g.startedAt), ("finished_at", .ofOption .nat g.finishedAt)]

namespace Store

/-- The lease of a rollout, if there is one. -/
def leaseOf (s : Store) (id : RolloutId) : Except StoreError (Option Lease) :=
  Table.read s.leases (Lease.rolloutKey id)

/-- Where a rollout and its groups stand, and who holds it. -/
def rolloutOverview (s : Store) (r : Rollout) : Except StoreError Json := do
  let l ← s.leaseOf r.id
  let groups ← s.listGroups r.id
  return .obj [("id", .str r.id), ("state", Named.toJson r.state), ("deleted", .bool r.deleted),
    ("total_targets", .nat r.totalTargets), ("last_error", .ofOption .str r.lastError),
    ("updated_at", .nat r.updatedAt), ("last_resolved_at", .nat r.lastResolvedAt),
    ("lease", .ofOption Lease.toJson l), ("groups", .ofList RolloutGroup.overview groups)]

/-- Where every rollout stands. -/
def overview (s : Store) : Except StoreError Json := do
  return .arr (← (← s.listRollouts).mapM s.rolloutOverview)

/-- A view of each rollout under its id. -/
def perRollout (rollouts : List Rollout) (view : RolloutId → Except StoreError Json) :
    Except StoreError Json := do
  return .obj (← rollouts.mapM fun r => (view r.id).map fun j => (r.id, j))

/-- All rows; groups, actions and leases under the rollouts that they belong to. -/
def contents (s : Store) : Except StoreError Json := do
  let rollouts ← s.listRollouts
  let groups ← perRollout rollouts fun id =>
    (s.listGroups id).map (.ofList RolloutGroup.toJson)
  let actions ← perRollout rollouts fun id => (s.listActions id).map (.ofList Action.toJson)
  let leases ← perRollout rollouts fun id => (s.leaseOf id).map (.ofOption Lease.toJson)
  return .obj [("rollouts", .ofList Rollout.toJson rollouts), ("groups", groups),
    ("actions", actions), ("leases", leases),
    ("targets", .ofList Target.toJson (← s.listTargets)),
    ("filters", .ofList SavedFilter.toJson (← s.listFilters))]

end Store

end StagedRollout
