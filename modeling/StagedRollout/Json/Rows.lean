/-
# Rows in JSON

How the rows of the store, and the choices inside them, are written in JSON and read back.
`toJson` writes every field in the order of the structure; `reader` accepts what `toJson`
writes and every other spelling that a record, a choice or a tagged value may have.
-/
import StagedRollout.Fleet.Target
import StagedRollout.Json.Reader
import StagedRollout.Lease.Basic
import StagedRollout.Rollout.Group
import StagedRollout.Rollout.Partition

namespace StagedRollout

open Json (Reader Fields Choice)
open Json.Fields (required nullable defaulted)

/-- A choice as the string of its name. -/
def Named.toJson {α : Type} [Named α] (a : α) : Json := .str (Named.name a)

/-- Reads a choice by its name. -/
def Named.reader {α : Type} [Named α] : Reader α := Choice.word Named.ofName?

namespace Condition

/-- A condition as its kind and its value. -/
def toJson : Condition → Json
  | threshold percent => .obj [("kind", .str "threshold"), ("value", .nat percent)]
  | count required => .obj [("kind", .str "count"), ("value", .nat required)]

/-- The conditions by their kinds. -/
def choice : String → Option (Choice Condition)
  | "threshold" => Choice.of threshold (Reader.nat Text.max8)
  | "count" => Choice.of count Reader.nat32
  | _ => none

/-- Reads a condition. -/
def reader : Reader Condition := Json.Tagged.reader "kind" "value" fun _ => choice

end Condition

namespace StartPolicy

/-- A start policy as its type, and its time if it has one. -/
def toJson : StartPolicy → Json
  | manual => .obj [("type", .str "manual")]
  | scheduled startAt => .obj [("type", .str "scheduled"), ("start_at", .nat startAt)]
  | auto => .obj [("type", .str "auto")]

/-- The start policies by their types. -/
def fields : String → Option (Fields StartPolicy)
  | "manual" => some (pure manual)
  | "scheduled" => some (scheduled <$> required "start_at" Reader.nat64)
  | "auto" => some (pure auto)
  | _ => none

/-- Reads a start policy. -/
def reader : Reader StartPolicy := Json.Tagged.besideFields "type" fields

end StartPolicy

namespace GroupSpec

/-- A group definition as its kind and what it holds. -/
def toJson : GroupSpec → Json
  | percentages weights => .obj [("percentages", .ofList .nat weights)]
  | count n => .obj [("count", .nat n)]
  | explicit subsets => .obj [("explicit", .ofList (.ofList .str) subsets)]

/-- The group definitions by their kinds. -/
def choice : String → Option (Choice GroupSpec)
  | "percentages" => Choice.of percentages (Reader.list Reader.nat32)
  | "count" => Choice.of count Reader.nat32
  | "explicit" => Choice.of explicit (Reader.list (Reader.list Reader.text))
  | _ => none

/-- Reads a group definition. -/
def reader : Reader GroupSpec := Choice.reader choice false

end GroupSpec

namespace StatusCounts

/-- The counters by the names of their statuses. -/
def toJson (c : StatusCounts) : Json :=
  .obj [("created", .nat c.created), ("running", .nat c.running), ("download", .nat c.download),
    ("canceling", .nat c.canceling), ("canceled", .nat c.canceled),
    ("finished_success", .nat c.finishedSuccess), ("finished_error", .nat c.finishedError)]

/-- The fields of the counters. -/
def fields : Fields StatusCounts :=
  StatusCounts.mk <$> required "created" Reader.nat32 <*> required "running" Reader.nat32 <*>
    required "download" Reader.nat32 <*> required "canceling" Reader.nat32 <*>
    required "canceled" Reader.nat32 <*> required "finished_success" Reader.nat32 <*>
    required "finished_error" Reader.nat32

/-- Reads the counters. -/
def reader : Reader StatusCounts := fields.reader

end StatusCounts

namespace Rollout

/-- A rollout with all its fields. -/
def toJson (r : Rollout) : Json :=
  .obj [("id", .str r.id), ("name", .str r.name),
    ("description", .ofOption .str r.description), ("target_filter", .str r.targetFilter),
    ("distribution", .str r.distribution), ("group_ids", .ofList .str r.groupIds),
    ("total_targets", .nat r.totalTargets), ("state", Named.toJson r.state),
    ("error_action", Named.toJson r.errorAction), ("start_policy", r.startPolicy.toJson),
    ("resolve_mode", Named.toJson r.resolveMode), ("action_type", Named.toJson r.actionType),
    ("weight", .nat r.weight), ("deleted", .bool r.deleted),
    ("last_error", .ofOption .str r.lastError), ("created_at", .nat r.createdAt),
    ("updated_at", .nat r.updatedAt), ("last_resolved_at", .nat r.lastResolvedAt)]

/-- The fields of a rollout. -/
def fields : Fields Rollout :=
  Rollout.mk <$> required "id" Reader.text <*> required "name" Reader.text <*>
    nullable "description" Reader.text <*> required "target_filter" Reader.text <*>
    required "distribution" Reader.text <*> required "group_ids" (Reader.list Reader.text) <*>
    required "total_targets" Reader.nat32 <*> required "state" Named.reader <*>
    required "error_action" Named.reader <*> required "start_policy" StartPolicy.reader <*>
    required "resolve_mode" Named.reader <*> required "action_type" Named.reader <*>
    required "weight" Reader.nat32 <*> required "deleted" Reader.bool <*>
    nullable "last_error" Reader.text <*> required "created_at" Reader.nat64 <*>
    required "updated_at" Reader.nat64 <*> defaulted "last_resolved_at" Reader.nat64 0

/-- Reads a rollout.  One that was stored before its filter could be resolved again says nothing
about when that was last done. -/
def reader : Reader Rollout := fields.reader

end Rollout

namespace RolloutGroup

/-- A group with all its fields. -/
def toJson (g : RolloutGroup) : Json :=
  .obj [("id", .str g.id), ("rollout_id", .str g.rolloutId), ("index", .nat g.index),
    ("name", .str g.name), ("targets", .ofList .str g.targets),
    ("target_count", .nat g.targetCount), ("success_condition", g.successCondition.toJson),
    ("error_condition", .ofOption Condition.toJson g.errorCondition),
    ("error_action", Named.toJson g.errorAction), ("state", Named.toJson g.state),
    ("outcome", .ofOption Named.toJson g.outcome), ("counts", g.counts.toJson),
    ("error_acknowledged", .bool g.errorAcknowledged),
    ("started_at", .ofOption .nat g.startedAt), ("finished_at", .ofOption .nat g.finishedAt)]

/-- The fields of a group. -/
def fields : Fields RolloutGroup :=
  RolloutGroup.mk <$> required "id" Reader.text <*> required "rollout_id" Reader.text <*>
    required "index" Reader.nat32 <*> required "name" Reader.text <*>
    required "targets" (Reader.list Reader.text) <*> required "target_count" Reader.nat32 <*>
    required "success_condition" Condition.reader <*>
    nullable "error_condition" Condition.reader <*> required "error_action" Named.reader <*>
    required "state" Named.reader <*> nullable "outcome" Named.reader <*>
    required "counts" StatusCounts.reader <*> required "error_acknowledged" Reader.bool <*>
    nullable "started_at" Reader.nat64 <*> nullable "finished_at" Reader.nat64

/-- Reads a group. -/
def reader : Reader RolloutGroup := fields.reader

end RolloutGroup

namespace Action

/-- An action with all its fields. -/
def toJson (a : Action) : Json :=
  .obj [("id", .str a.id), ("rollout_id", .str a.rolloutId), ("group_id", .str a.groupId),
    ("target_id", .str a.targetId), ("distribution", .str a.distribution),
    ("action_type", Named.toJson a.actionType), ("status", Named.toJson a.status),
    ("weight", .nat a.weight), ("created_at", .nat a.createdAt),
    ("last_status_at", .nat a.lastStatusAt)]

/-- The fields of an action. -/
def fields : Fields Action :=
  Action.mk <$> required "id" Reader.text <*> required "rollout_id" Reader.text <*>
    required "group_id" Reader.text <*> required "target_id" Reader.text <*>
    required "distribution" Reader.text <*> required "action_type" Named.reader <*>
    required "status" Named.reader <*> required "weight" Reader.nat32 <*>
    required "created_at" Reader.nat64 <*> required "last_status_at" Reader.nat64

/-- Reads an action. -/
def reader : Reader Action := fields.reader

end Action

/-- A map of texts as an object. -/
def OrderedMap.toJson (m : OrderedMap String) : Json :=
  .obj (m.entries.map fun e => (e.1, .str e.2))

namespace Target

/-- A device with all its fields. -/
def toJson (t : Target) : Json :=
  .obj [("id", .str t.id), ("name", .str t.name), ("attributes", t.attributes.toJson),
    ("tags", .ofList .str t.tags), ("registered_at", .nat t.registeredAt),
    ("last_poll_at", .ofOption .nat t.lastPollAt)]

/-- The fields of a device. -/
def fields : Fields Target :=
  Target.mk <$> required "id" Reader.text <*> required "name" Reader.text <*>
    required "attributes" Reader.textMap <*> required "tags" (Reader.list Reader.text) <*>
    required "registered_at" Reader.nat64 <*> nullable "last_poll_at" Reader.nat64

/-- Reads a device. -/
def reader : Reader Target := fields.reader

end Target

namespace SavedFilter

/-- A saved filter with all its fields. -/
def toJson (f : SavedFilter) : Json :=
  .obj [("id", .str f.id), ("name", .str f.name), ("query", .str f.query),
    ("created_at", .nat f.createdAt)]

/-- The fields of a saved filter. -/
def fields : Fields SavedFilter :=
  SavedFilter.mk <$> required "id" Reader.text <*> required "name" Reader.text <*>
    required "query" Reader.text <*> required "created_at" Reader.nat64

/-- Reads a saved filter. -/
def reader : Reader SavedFilter := fields.reader

end SavedFilter

namespace Lease

/-- A lease with all its fields. -/
def toJson (l : Lease) : Json :=
  .obj [("key", .str l.key), ("owner", .str l.owner), ("fencing", .nat l.fencing),
    ("expires_at_ms", .nat l.expiresAt)]

/-- The fields of a lease. -/
def fields : Fields Lease :=
  Lease.mk <$> required "key" Reader.text <*> required "owner" Reader.text <*>
    required "fencing" Reader.nat64 <*> required "expires_at_ms" Reader.nat64

/-- Reads a lease. -/
def reader : Reader Lease := fields.reader

end Lease

end StagedRollout
