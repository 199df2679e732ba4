/-
# Requests in JSON

A request travels to the process that holds the store as JSON: its kind as the member
`command`, and what is asked as the member `action`.
-/
import StagedRollout.Json.Rows
import StagedRollout.Request.Basic

namespace StagedRollout

open Json (Reader Fields Choice)
open Json.Fields (required nullable)

namespace RolloutOrder

/-- The words with their names. -/
def toJson (o : RolloutOrder) : Json :=
  .obj [("name", .str o.name), ("filter", .str o.filter), ("distribution", .str o.distribution),
    ("groups", .ofList .nat o.groups), ("group_count", .ofOption .nat o.groupCount),
    ("group", .ofList .str o.group), ("success", .str o.success),
    ("error", .ofOption .str o.error), ("error_action", .str o.errorAction),
    ("start", .str o.start), ("live", .bool o.live), ("action_type", .str o.actionType),
    ("weight", .nat o.weight), ("description", .ofOption .str o.description),
    ("require_approval", .bool o.requireApproval)]

/-- The words in order. -/
def fields : Fields RolloutOrder :=
  RolloutOrder.mk <$> required "name" Reader.text <*> required "filter" Reader.text <*>
    required "distribution" Reader.text <*> required "groups" (Reader.list Reader.nat32) <*>
    nullable "group_count" Reader.nat32 <*> required "group" (Reader.list Reader.text) <*>
    required "success" Reader.text <*> nullable "error" Reader.text <*>
    required "error_action" Reader.text <*> required "start" Reader.text <*>
    required "live" Reader.bool <*> required "action_type" Reader.text <*>
    required "weight" Reader.nat32 <*> nullable "description" Reader.text <*>
    required "require_approval" Reader.bool

end RolloutOrder

namespace Request

/-- A choice whose only field is a text. -/
def withText (choice field : String) (value : String) : Json :=
  .obj [(choice, .obj [(field, .str value)])]

/-- A choice that holds a record. -/
def holding {α : Type} (f : Fields α) : Option (Choice α) := some (.holding f.reader)

/-- A choice whose only field is a text. -/
def holdingText {α : Type} (make : String → α) (field : String) : Option (Choice α) :=
  holding (make <$> required field Reader.text)

/-- Two texts as an array. -/
def pairToJson (p : String × String) : Json := .arr [.str p.1, .str p.2]

end Request

open Request (withText holding holdingText pairToJson)

namespace RolloutRequest

/-- A request on rollouts in JSON. -/
def toJson : RolloutRequest → Json
  | create order => .obj [("create", order.toJson)]
  | approve name => withText "approve" "name" name
  | deny name => withText "deny" "name" name
  | start name => withText "start" "name" name
  | pause name => withText "pause" "name" name
  | resume name => withText "resume" "name" name
  | stop name => withText "stop" "name" name
  | delete name => withText "delete" "name" name
  | triggerNext name => withText "trigger_next" "name" name
  | list => .str "list"
  | detail name => withText "show" "name" name

/-- The requests on rollouts by their names. -/
def choice : String → Option (Choice RolloutRequest)
  | "create" => holding (create <$> RolloutOrder.fields)
  | "approve" => holdingText approve "name"
  | "deny" => holdingText deny "name"
  | "start" => holdingText start "name"
  | "pause" => holdingText pause "name"
  | "resume" => holdingText resume "name"
  | "stop" => holdingText stop "name"
  | "delete" => holdingText delete "name"
  | "trigger_next" => holdingText triggerNext "name"
  | "list" => some (.bare list)
  | "show" => holdingText detail "name"
  | _ => none

end RolloutRequest

namespace TargetRequest

/-- A request on the device registry in JSON. -/
def toJson : TargetRequest → Json
  | add id name tags attributes =>
    .obj [("add", .obj [("id", .str id), ("name", .ofOption .str name),
      ("tag", .ofList .str tags), ("attributes", .ofList pairToJson attributes)])]
  | remove id => withText "remove" "id" id
  | list filter => .obj [("list", .obj [("filter", .ofOption .str filter)])]

/-- The requests on the device registry by their names. -/
def choice : String → Option (Choice TargetRequest)
  | "add" =>
    holding (add <$> required "id" Reader.text <*> nullable "name" Reader.text <*>
      required "tag" (Reader.list Reader.text) <*>
      required "attributes" (Reader.list (Reader.pair Reader.text Reader.text)))
  | "remove" => holdingText remove "id"
  | "list" => holding (list <$> nullable "filter" Reader.text)
  | _ => none

end TargetRequest

namespace FilterRequest

/-- A request on saved filters in JSON. -/
def toJson : FilterRequest → Json
  | save id query name =>
    .obj [("save", .obj [("id", .str id), ("query", .str query),
      ("name", .ofOption .str name)])]
  | remove id => withText "remove" "id" id
  | list => .str "list"

/-- The requests on saved filters by their names. -/
def choice : String → Option (Choice FilterRequest)
  | "save" =>
    holding (save <$> required "id" Reader.text <*> required "query" Reader.text <*>
      nullable "name" Reader.text)
  | "remove" => holdingText remove "id"
  | "list" => some (.bare list)
  | _ => none

end FilterRequest

namespace DeviceRequest

/-- A request of a device in JSON. -/
def toJson : DeviceRequest → Json
  | report action status =>
    .obj [("report", .obj [("action_id", .str action), ("status", .str status)])]
  | poll target => withText "poll" "target" target

/-- The requests of devices by their names. -/
def choice : String → Option (Choice DeviceRequest)
  | "report" =>
    holding (report <$> required "action_id" Reader.text <*> required "status" Reader.text)
  | "poll" => holdingText poll "target"
  | _ => none

end DeviceRequest

namespace Request

/-- A kind of request and what is asked. -/
def tagged (kind : String) (content : Json) : Json :=
  .obj [("command", .str kind), ("action", content)]

/-- A request in JSON. -/
def toJson : Request → Json
  | rollout r => tagged "rollout" r.toJson
  | target r => tagged "target" r.toJson
  | filter r => tagged "filter" r.toJson
  | device r => tagged "action" r.toJson
  | cleanup => .obj [("command", .str "cleanup")]

/-- The kinds of requests, of which all but one hold a choice. -/
def choice (kept : Bool) : String → Option (Choice Request)
  | "rollout" => Choice.of rollout (Choice.reader RolloutRequest.choice kept)
  | "target" => Choice.of target (Choice.reader TargetRequest.choice kept)
  | "filter" => Choice.of filter (Choice.reader FilterRequest.choice kept)
  | "action" => Choice.of device (Choice.reader DeviceRequest.choice kept)
  | "cleanup" => some (.bare cleanup)
  | _ => none

/-- Reads a request. -/
def reader : Reader Request := Json.Tagged.reader "command" "action" choice

end Request

end StagedRollout
