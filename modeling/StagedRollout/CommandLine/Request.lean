/-
# The command lines of requests

The forms of the commands on rollouts, devices, saved filters and actions.
-/
import StagedRollout.CommandLine.Basic
import StagedRollout.Request.Basic
import StagedRollout.Text.Number

namespace StagedRollout.CommandLine

open Text

/-- A number of 32 bits; a sign is allowed, also in front of a zero. -/
def number? (s : String) : Option Nat :=
  match s.toList with
  | '-' :: c :: cs => if (c :: cs).all (· == '0') then some 0 else none
  | _ => (readNat max32 s).toOption

/-- The numbers of a list with commas between them. -/
def numbers? (s : String) : Option (List Nat) :=
  (splitAll ',' s.toList).mapM fun part => number? (String.ofList part)

/-- The key and the value of an attribute, with an equals sign between them. -/
def attribute? (s : String) : Option (String × String) :=
  match splitOnce '=' s.toList with
  | some (key, value) =>
    let key := trimChars key
    if key.isEmpty then none
    else some (String.ofList key, String.ofList (trimChars value))
  | none => none

/-- The options of a new rollout. -/
def orderOptions : List OptionSpec :=
  [.text "filter", .text "distribution",
    ⟨"groups", .repeated, fun s => (numbers? s).isSome⟩,
    ⟨"group-count", .once, fun s => (number? s).isSome⟩,
    .texts "group", .text "success", .text "error", .text "error-action", .text "start",
    .flag "live", .text "action-type", ⟨"weight", .once, fun s => (number? s).isSome⟩,
    .text "description", .flag "require-approval"]

/-- The new rollout that was given. -/
def order? (g : Given) : Option RolloutOrder := do
  return {
    name := ← g.positionals.head?
    filter := ← g.value? "filter"
    distribution := ← g.value? "distribution"
    groups := ((g.values "groups").filterMap numbers?).flatten
    groupCount := (g.value? "group-count").bind number?
    group := g.values "group"
    success := (g.value? "success").getD "threshold:100"
    error := g.value? "error"
    errorAction := (g.value? "error-action").getD "pause"
    start := (g.value? "start").getD "manual"
    live := g.has "live"
    actionType := (g.value? "action-type").getD "forced"
    weight := ((g.value? "weight").bind number?).getD 0
    description := g.value? "description"
    requireApproval := g.has "require-approval" }

/-- A command without arguments. -/
def bare {α : Type} (command : String) (a : α) : Form α :=
  ⟨command, 0, [], [], fun _ => some a⟩

/-- A command with one positional argument. -/
def withName {α : Type} (command : String) (make : String → α) : Form α :=
  ⟨command, 1, [], [], fun g => g.positionals.head?.map make⟩

/-- The commands on rollouts. -/
def rolloutForms : List (Form RolloutRequest) :=
  [⟨"create", 1, orderOptions,
      [("groups", "group-count"), ("groups", "group"), ("group-count", "group")],
      fun g => (order? g).map .create⟩,
    withName "approve" .approve, withName "deny" .deny, withName "start" .start,
    withName "pause" .pause, withName "resume" .resume, withName "stop" .stop,
    withName "delete" .delete, withName "trigger-next" .triggerNext, bare "list" .list,
    withName "show" .detail]

/-- The device that was given. -/
def newTarget? (g : Given) : Option TargetRequest :=
  g.positionals.head?.map fun id =>
    .add id (g.value? "name") (g.values "tag") ((g.values "attr").filterMap attribute?)

/-- The commands on devices. -/
def targetForms : List (Form TargetRequest) :=
  [⟨"add", 1,
      [.text "name", .texts "tag", ⟨"attr", .repeated, fun s => (attribute? s).isSome⟩], [],
      newTarget?⟩,
    withName "remove" .remove,
    ⟨"list", 0, [.text "filter"], [], fun g => some (.list (g.value? "filter"))⟩]

/-- The saved filter that was given. -/
def newFilter? (g : Given) : Option FilterRequest :=
  match g.positionals with
  | id :: query :: _ => some (.save id query (g.value? "name"))
  | _ => none

/-- The commands on saved filters. -/
def filterForms : List (Form FilterRequest) :=
  [⟨"save", 2, [.text "name"], [], newFilter?⟩, withName "remove" .remove, bare "list" .list]

/-- The report that was given. -/
def report? (g : Given) : Option DeviceRequest :=
  match g.positionals with
  | action :: status :: _ => some (.report action status)
  | _ => none

/-- The commands of devices. -/
def deviceForms : List (Form DeviceRequest) :=
  [⟨"report", 2, [], [], report?⟩, withName "poll" .poll]

/-- The request that a command line gives behind the word for the kind of request. -/
def request (kind : String) (args : List String) : Except Fault Request :=
  if kind = "rollout" then (parse rolloutForms args).map .rollout
  else if kind = "target" then (parse targetForms args).map .target
  else if kind = "filter" then (parse filterForms args).map .filter
  else if kind = "action" then (parse deviceForms args).map .device
  else if kind = "cleanup" then (bare "cleanup" Request.cleanup).parse args
  else .error .unknownCommand

end StagedRollout.CommandLine
