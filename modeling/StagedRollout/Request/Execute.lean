/-
# Carrying out requests

Every request ends with a text for the one who asked, or with an error.
-/
import StagedRollout.Json.Printer
import StagedRollout.Json.Rows
import StagedRollout.Mailbox
import StagedRollout.Operator.Command
import StagedRollout.Request.Word
import StagedRollout.Scheduler.Cleanup

namespace StagedRollout.Request

open Text (padRight padLeft joinLines)

variable [Wildcard.Limit]

/-- A transaction of a request. -/
def commit {α : Type} (t : Transaction α) : Operation RequestError α :=
  Operation.mapError .store (Operation.commit none t)

/-- A look at the store. -/
def look {α : Type} (view : Store → Except StoreError α) : Operation RequestError α :=
  Operation.mapError .store (Operation.read view)

/-- An operator's work. -/
def operate {α : Type} (op : Operation RolloutError α) : Operation RequestError α :=
  Operation.mapError .rollout op

/-! ## Rollouts -/

/-- One line of the listing of rollouts. -/
def listingLine (name state targets weight : String) : String :=
  padRight 32 name ++ " " ++ padRight 20 state ++ " " ++ padLeft ' ' 8 targets ++ " " ++
    padLeft ' ' 6 weight

/-- The state of a rollout as it is listed. -/
def listedState (r : Rollout) : String :=
  if r.deleted && decide (r.state ≠ .deleted) then Named.name r.state ++ " (deleted)"
  else Named.name r.state

/-- The listing of rollouts. -/
def listing (rollouts : List Rollout) : String :=
  joinLines (listingLine "NAME" "STATE" "TARGETS" "WEIGHT" ::
    rollouts.map fun r =>
      listingLine r.id (listedState r) (toString r.totalTargets) (toString r.weight))

/-- The answer to a command. -/
def stateText (r : Rollout) : String := s!"rollout {r.id} is {Named.name r.state}"

/-- Carries out a request on rollouts. -/
def executeRollout (m : Operator) : RolloutRequest → Operation RequestError String
  | .create order => do
    let n ← Operation.ofExcept (readOrder order)
    return (← operate (m.create Resolver.ofStore n)).toJson.pretty
  | .approve name => do return stateText (← operate (m.approve name))
  | .deny name => do return stateText (← operate (m.deny name))
  | .start name => do return stateText (← operate (m.start name))
  | .pause name => do return stateText (← operate (m.pause name))
  | .resume name => do return stateText (← operate (m.resume name))
  | .stop name => do return stateText (← operate (m.stop name))
  | .delete name => do return stateText (← operate (m.delete name))
  | .triggerNext name => do
    let g ← operate (m.triggerNext name)
    return s!"rollout {name}: group {g.index} ({g.name}) finished"
  | .list => do return listing (← operate Operator.list)
  | .detail name => do
    let r ← operate (Operator.get name)
    let groups ← operate (Operator.groups name)
    let doc := Json.obj [("rollout", r.toJson), ("groups", .ofList RolloutGroup.toJson groups)]
    return doc.sortNames.pretty

/-! ## Devices -/

/-- One line of the listing of devices. -/
def targetLine (t : Target) : String :=
  padRight 32 t.id ++ " " ++ padRight 24 t.name ++ " " ++ String.intercalate "," t.tags

/-- When a device was registered: now, unless it was registered before. -/
def registeredAt : Option Target → Operation RequestError Nat
  | some t => return t.registeredAt
  | none => Operation.nowSeconds

/-- The filter of a listing, if there is one. -/
def readFilter : Option String → Except RequestError (Option TargetFilter.Expr)
  | none => .ok none
  | some query => ((TargetFilter.parse query).map some).mapError .filter

/-- Whether a device is listed. -/
def isListed (expr : Option TargetFilter.Expr) (t : Target) : Bool :=
  match expr with
  | none => true
  | some e => e.selects t

/-- Carries out a request on the device registry. -/
def executeTarget : TargetRequest → Operation RequestError String
  | .add id name tags attributes => do
    let old ← look fun s => Table.read s.targets id
    let t : Target := {
      id := id
      name := name.getD id
      attributes := .ofList attributes
      tags := tags
      registeredAt := ← registeredAt old
      lastPollAt := old.bind (·.lastPollAt) }
    commit (Transaction.putTarget t)
    return s!"target {id} registered"
  | .remove id => do
    if ← commit (Transaction.deleteTarget id) then return s!"target {id} removed"
    else throw (.unknownTarget id)
  | .list query => do
    let expr ← Operation.ofExcept (readFilter query)
    let targets ← look Store.listTargets
    return joinLines ((targets.filter (isListed expr)).map targetLine)

/-! ## Saved filters -/

/-- Carries out a request on saved filters. -/
def executeFilter : FilterRequest → Operation RequestError String
  | .save id query name => do
    let _ ← Operation.ofExcept ((TargetFilter.parse query).mapError .filter)
    let now ← Operation.nowSeconds
    commit (Transaction.putFilter ⟨id, name.getD id, query, now⟩)
    return s!"filter @{id} saved"
  | .remove id => do
    if ← commit (Transaction.deleteFilter id) then return s!"filter @{id} removed"
    else throw (.unknownFilter id)
  | .list => do
    let filters ← look Store.listFilters
    return joinLines (filters.map fun f => "@" ++ padRight 24 f.id ++ " " ++ f.query)

/-! ## Actions -/

/-- The status that a word names. -/
def readStatus (word : String) : Except RequestError ActionStatus :=
  readChoice "action status" word

/-- The answer to a report. -/
def reportText (id : ActionId) : ReportOutcome → Except RequestError String
  | .applied a source =>
    .ok s!"action {a.id}: {Named.name source} -> {Named.name a.status}"
  | .unchanged a => .ok s!"action {a.id} already {Named.name a.status}"
  | .rejected a => .error (.actionEnded a.id a.status)
  | .unknown => .error (.unknownAction id)

/-- The actions that have not ended. -/
def unfinished (actions : List Action) : List Action :=
  actions.filter fun a => !a.status.isTerminal

/-- One line of the listing of a device's actions. -/
def actionLine (a : Action) : String :=
  padRight 48 a.id ++ " " ++ Named.name a.status ++ " " ++ a.distribution

/-- Carries out a request of a device. -/
def executeDevice : DeviceRequest → Operation RequestError String
  | .report id word => do
    let status ← Operation.ofExcept (readStatus word)
    let now ← Operation.nowSeconds
    let outcome ← operate (StatusReport.apply none ⟨id, status, now⟩)
    Operation.ofExcept (reportText id outcome)
  | .poll id => do
    let actions ← look fun s => s.listActionsForTarget id
    return joinLines ((unfinished actions).map actionLine)

/-! ## Cleanup -/

/-- The answer to a cleanup pass. -/
def cleanupText (r : CleanupReport) : String :=
  s!"purged {r.rolloutsPurged} rollout(s), deleted {r.groupsDeleted} group(s) and " ++
    s!"{r.actionsDeleted} action(s), kept {r.actionsRetained} in-flight action(s)"

/-- Carries out a cleanup pass with a grace in seconds. -/
def executeCleanup (grace : Nat) : Operation RequestError String := do
  let now ← Operation.nowSeconds
  let report ← ExceptT.lift (Cleanup.pass grace now)
  if 0 < report.failed then throw (.cleanupFailed report.failed)
  return cleanupText report

/-- Carries out a request under a configuration; `owner` is the name under which leases are
held. -/
def execute (c : Config) (owner : String) : Request → Operation RequestError String
  | rollout r => executeRollout (.ofConfig none c owner) r
  | target r => executeTarget r
  | filter r => executeFilter r
  | device r => executeDevice r
  | cleanup => executeCleanup c.cleanup.inFlightGrace

end StagedRollout.Request
