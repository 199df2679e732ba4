/-
# Results in JSON

How the results of operations are written in JSON.
-/
import StagedRollout.Json.Rows
import StagedRollout.Progression.Advance
import StagedRollout.Scheduler.Cleanup
import StagedRollout.Scheduler.Cycle

namespace StagedRollout

/-- The bits of a floating-point number as sixteen hexadecimal digits. -/
def Ratio.hex (bits : Nat) : String :=
  Text.padLeft '0' 16 (String.ofList (Nat.toDigits 16 bits))

/-- What counters add up to. -/
def StatusCounts.summary (c : StatusCounts) : Json :=
  .obj [("total", .nat c.total), ("success", .nat c.finishedSuccess),
    ("error", .nat c.finishedError), ("pending", .nat c.pending), ("terminal", .nat c.terminal),
    ("success_ratio", .str (Ratio.hex c.successRatio)),
    ("error_ratio", .str (Ratio.hex c.errorRatio))]

/-- A fence with all its fields. -/
def Fence.toJson (f : Fence) : Json :=
  .obj [("key", .str f.key), ("owner", .str f.owner), ("token", .nat f.token)]

/-- The fields of a fence. -/
def Fence.fields : Json.Fields Fence :=
  Fence.mk <$> .required "key" .text <*> .required "owner" .text <*> .required "token" .nat64

/-- Reads a fence. -/
def Fence.reader : Json.Reader Fence := Fence.fields.reader

/-- A guard with its fence. -/
def Guard.toJson (g : Guard) : Json :=
  .obj [("rollout_id", .str g.rolloutId), ("key", .str g.key), ("owner", .str g.owner),
    ("fencing", .nat g.fencing), ("expires_at_ms", .nat g.expiresAt), ("fence", g.fence.toJson)]

/-- The answer to an attempt to take a lease. -/
def LeaseGrant.toJson : LeaseGrant → Json
  | granted l => .obj [("granted", l.toJson)]
  | held l => .obj [("held", l.toJson)]

/-- Actions that were issued, with their group. -/
def Issued.toJson (i : Issued) : Json :=
  .obj [("group", i.group.toJson), ("created", .ofList Action.toJson i.created)]

/-- What became of a status report. -/
def ReportOutcome.toJson : ReportOutcome → Json
  | applied a source => .obj [("applied", a.toJson), ("from", Named.toJson source)]
  | unchanged a => .obj [("unchanged", a.toJson)]
  | rejected a => .obj [("rejected", a.toJson)]
  | unknown => .str "not_found"

/-- What a step did for a rollout. -/
def Progression.Advance.toJson (a : Progression.Advance) : Json :=
  .obj [("from", Named.toJson a.before), ("to", Named.toJson a.after),
    ("groups_started", .nat a.groupsStarted), ("groups_settled", .nat a.groupsSettled),
    ("progressed", .bool a.progressed)]

/-- What a cycle did. -/
def CycleReport.toJson (r : CycleReport) : Json :=
  .obj [("advanced", .nat r.advanced), ("contended", .nat r.contended),
    ("failed", .nat r.failed), ("skipped", .nat r.skipped)]

/-- What a cleanup pass did. -/
def CleanupReport.toJson (r : CleanupReport) : Json :=
  .obj [("rollouts_purged", .nat r.rolloutsPurged), ("groups_deleted", .nat r.groupsDeleted),
    ("actions_deleted", .nat r.actionsDeleted), ("actions_retained", .nat r.actionsRetained),
    ("failed", .nat r.failed), ("noop", .bool r.isNoop)]

end StagedRollout
