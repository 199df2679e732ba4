/-
# The control API

The process that holds the store answers requests of operators and devices from other
processes.  A status report is only put into the mailbox here, so the aggregator stays the one
who applies reports; everything else is carried out at once.
-/
import StagedRollout.Api.Http
import StagedRollout.Api.MediaType
import StagedRollout.Request.Execute
import StagedRollout.Request.Json
import StagedRollout.Text.Percent

namespace StagedRollout.Api

/-- What a handler of the API does: a program that may put reports into the mailbox. -/
abbrev Handler (α : Type) := StateT Mailbox Program α

/-- An answer: what was asked for, or why it was refused. -/
structure Reply where
  status : Nat
  content : Except String Json

namespace Reply

/-- An answer to a request that was carried out. -/
def ok (data : Json) : Reply := ⟨200, .ok data⟩

/-- A refusal. -/
def refusal (status : Nat) (text : String) : Reply := ⟨status, .error text⟩

/-- The body of an answer. -/
def toJson (r : Reply) : Json :=
  match r.content with
  | .ok data => .obj [("success", .bool true), ("data", data)]
  | .error text => .obj [("success", .bool false), ("error", .str text)]

/-- An answer as a message. -/
def toResponse (r : Reply) : HttpResponse := ⟨r.status, r.toJson.compact⟩

end Reply

/-- The status of the answer to an operator's work that failed. -/
def rolloutStatus : RolloutError → Nat
  | .notFound _ => 404
  | .busy _ _ | .alreadyExists _ | .invalidTransition _ _ _ => 409
  | .persistence _ | .mailboxClosed => 500
  | _ => 400

/-- The status of the answer to a request that failed. -/
def errorStatus : RequestError → Nat
  | .rollout e => rolloutStatus e
  | .store _ => 500
  | _ => 400

/-- Puts a report into the mailbox. -/
def queue (id : ActionId) (status : ActionStatus) : Handler (Except RolloutError Unit) := do
  let now ← StateT.lift Program.nowSeconds
  fun m => m.submit none ⟨id, status, now⟩

/-- The answer to a report that was put into the mailbox, or was not. -/
def queued (status : Nat) (text : String) : Except RolloutError Unit → Reply
  | .ok () => ⟨status, .ok (.str text)⟩
  | .error e => .refusal 503 e.message

/-- The answer to a request that was carried out, or was not. -/
def answered : Except RequestError String → Reply
  | .ok text => .ok (.str text)
  | .error e => .refusal (errorStatus e) e.message

/-- Carries out a request. -/
def runCommand [Wildcard.Limit] (c : Config) (owner : String) : Request → Handler Reply
  | .device (.report id word) =>
    match Request.readStatus word with
    | .error e => return .refusal 400 e.message
    | .ok status => do
      return queued 200 s!"report for {id} queued" (← queue id status)
  | r => do return answered (← StateT.lift (ExceptT.run (r.execute c owner)))

/-- Takes a device's report. -/
def reportStatus (id : ActionId) (status : ActionStatus) : Handler Reply := do
  return queued 202 "queued" (← queue id status)

/-- Lists a device's actions that have not ended. -/
def pollActions (id : TargetId) : Handler Reply := do
  match ← StateT.lift (Program.look fun s => s.listActionsForTarget id) with
  | .ok actions => return .ok (.ofList Action.toJson (Request.unfinished actions))
  | .error e => return .refusal 500 e.message

/-! ## Messages -/

/-- The status that a report's body names. -/
def statusBody : Json.Reader ActionStatus := (Json.Fields.required "status" Named.reader).reader

/-- The length in bytes that a body may have at most. -/
def maxBodySize : Nat := 2097152

section

variable [Refusals]

/-- Reads a body and goes on with what it holds.  A body that does not say that it is JSON, one
that is too long, one that is no JSON and one of the wrong shape are told apart. -/
def withBody {α : Type} (q : HttpRequest) (read : Json.Reader α) (go : α → Handler Reply) :
    Handler HttpResponse :=
  if !q.contentType.any isJsonType then return q.refused 415
  else if maxBodySize < q.body.utf8ByteSize then return q.refused 413
  else
    match read.ofText q.body with
    | .error .malformed => return q.refused 400
    | .error .mismatch => return q.refused 422
    | .ok a => do return (← go a).toResponse

/-- Reads the segment of a path that names something and goes on with the name. -/
def withSegment (q : HttpRequest) (segment : String) (go : String → Handler HttpResponse) :
    Handler HttpResponse :=
  match Text.percentDecode segment with
  | some id => go id
  | none => return q.refused 400

/-- Answers a message. -/
def handle [Wildcard.Limit] (c : Config) (owner : String) (q : HttpRequest) :
    Handler HttpResponse :=
  match Route.ofPath q.path with
  | none => return q.refused 404
  | some .commands =>
    if q.method = "POST" then withBody q Request.reader (runCommand c owner)
    else return q.refused 405
  | some (.actionStatus segment) =>
    if q.method = "POST" then
      withSegment q segment fun id => withBody q statusBody (reportStatus id)
    else return q.refused 405
  | some (.targetActions segment) =>
    if q.method = "GET" then
      withSegment q segment fun id => do return (← pollActions id).toResponse
    else if q.method = "HEAD" then
      -- the answer to a GET without its body
      withSegment q segment fun id => do return ⟨(← pollActions id).status, ""⟩
    else return q.refused 405

end

end StagedRollout.Api
