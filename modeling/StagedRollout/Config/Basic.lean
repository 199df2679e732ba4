/-
# Configuration

What an operator may set, what holds otherwise, and which settings are refused.
-/
import StagedRollout.Config.Address

namespace StagedRollout

/-- Group ids carry four digits of the group's index, so groups are listed in progression order
only below this number. -/
def groupIndexLimit : Nat := 10000

/-- The largest sizes that a rollout may have. -/
structure Quota where
  maxGroups : Nat
  maxActionsPerGroup : Nat
  maxActions : Nat
deriving DecidableEq, Repr

/-- The sizes that hold where nothing is set. -/
def Quota.standard : Quota := ⟨500, 5000, 100000⟩

/-- How schedulers work.  Times are in seconds. -/
structure SchedulerSettings where
  /-- The time between two cycles. -/
  interval : Nat
  /-- How long a rollout's lease lasts. -/
  lockTtl : Nat
  /-- How many failures in a row a rollout may have. -/
  maxRetries : Nat
  /-- The longest wait behind a failure. -/
  backoffMax : Nat
  /-- The time between two resolutions of a live rollout. -/
  liveResolveInterval : Nat
  /-- How many schedulers a daemon runs. -/
  workers : Nat
deriving DecidableEq, Repr

namespace SchedulerSettings

/-- What holds where nothing is set. -/
def standard : SchedulerSettings := ⟨10, 30, 5, 300, 60, 1⟩

/-- The time between two cycles in milliseconds, at least a second. -/
def intervalMillis (s : SchedulerSettings) : Nat := max s.interval 1 * 1000

/-- How long a lease lasts in milliseconds, at least a second. -/
def lockTtlMillis (s : SchedulerSettings) : Nat := max s.lockTtl 1 * 1000

/-- The time that a lease is taken for in milliseconds.  Lease times are numbers of 64 bits, so
a longer time loses what is beyond them. -/
def leaseMillis (s : SchedulerSettings) : Nat := s.lockTtlMillis % (Text.max64 + 1)

/-- The longest wait behind a failure in milliseconds. -/
def backoffMaxMillis (s : SchedulerSettings) : Nat := s.backoffMax * 1000

/-- The time between two resolutions in milliseconds, at least a second. -/
def liveResolveMillis (s : SchedulerSettings) : Nat := max s.liveResolveInterval 1 * 1000

end SchedulerSettings

/-- How deleted rollouts are reclaimed.  Times are in seconds. -/
structure CleanupSettings where
  interval : Nat
  /-- How long an open action counts as in flight behind its last report. -/
  inFlightGrace : Nat
deriving DecidableEq, Repr

/-- How the control API is reached. -/
structure ApiSettings where
  listen : SocketAddress
  /-- How many seconds a client waits for an answer. -/
  timeout : Nat
deriving DecidableEq, Repr

/-- All settings. -/
structure Config where
  /-- The directory that holds the store. -/
  dataDir : String
  quota : Quota
  scheduler : SchedulerSettings
  cleanup : CleanupSettings
  /-- Whether new rollouts wait for approval. -/
  approvalRequired : Bool
  api : ApiSettings
deriving DecidableEq, Repr

/-- Why settings are refused. -/
inductive ConfigFault where
  /-- The text is no configuration at all. -/
  | unreadable
  | noGroups
  | tooManyGroups (groups : Nat)
  | groupAboveRollout (group rollout : Nat)
  | leaseTooShort
deriving DecidableEq, Repr

namespace ConfigFault

/-- What an operator is told. -/
def message : ConfigFault → String
  | unreadable => "configuration cannot be read"
  | noGroups => "quota.max_groups_per_rollout must be at least 1"
  | tooManyGroups groups =>
    s!"quota.max_groups_per_rollout ({groups}) exceeds the limit of {groupIndexLimit}"
  | groupAboveRollout group rollout =>
    s!"quota.max_actions_per_group ({group}) exceeds quota.max_actions_per_rollout ({rollout})"
  | leaseTooShort => "scheduler.lock_ttl_secs is too short for scheduler.interval_secs"

end ConfigFault

namespace Config

/-- What holds where nothing is set. -/
def standard : Config where
  dataDir := "/var/lib/fleetgrid"
  quota := .standard
  scheduler := .standard
  cleanup := ⟨30, 300⟩
  approvalRequired := false
  api := ⟨.v4 [127, 0, 0, 1] 7480, 10⟩

/-- The first reason to refuse settings, if there is one.  A lease that lasts no longer than
half a cycle tends to run out in the middle of a change. -/
def fault? (c : Config) : Option ConfigFault :=
  if c.quota.maxGroups = 0 then some .noGroups
  else if groupIndexLimit < c.quota.maxGroups then some (.tooManyGroups c.quota.maxGroups)
  else if c.quota.maxActions < c.quota.maxActionsPerGroup then
    some (.groupAboveRollout c.quota.maxActionsPerGroup c.quota.maxActions)
  else if c.scheduler.lockTtl ≤ c.scheduler.interval / 2 then some .leaseTooShort
  else none

/-- Where the store is kept. -/
def storePath (c : Config) : String :=
  if c.dataDir.isEmpty || c.dataDir.toList.getLast? == some '/' then c.dataDir ++ "fleetgrid.redb"
  else c.dataDir ++ "/fleetgrid.redb"

/-- How many seconds a client waits for an answer, at least one. -/
def apiTimeout (c : Config) : Nat := max c.api.timeout 1

/-- The seconds between two cleanup passes, at least one. -/
def cleanupInterval (c : Config) : Nat := max c.cleanup.interval 1

end Config

end StagedRollout
