/-
# Forwarding requests

A process that does not hold the store sends its requests to the one that does and reads the
answer.
-/
import StagedRollout.Api.Basic

namespace StagedRollout.Api

/-- Why a request that was sent failed. -/
inductive ForwardError where
  /-- The answer is a refusal. -/
  | refused (text : String)
  /-- The answer cannot be read. -/
  | garbled (response : HttpResponse)
deriving DecidableEq, Repr

/-- What an operator is told. -/
def ForwardError.message : ForwardError → String
  | .refused text => text
  | .garbled response => s!"daemon answered {statusText response.status}: {response.body}"

/-- The message that carries a request. -/
def message (r : Request) : HttpRequest where
  method := "POST"
  path := "/api/v1/commands"
  contentType := some "application/json"
  body := r.toJson.compact

/-- What an answer says: whether the request was carried out, a text and an error. -/
def replyReader : Json.Reader (Bool × Option String × Option String) :=
  let text (name : String) : Json.Fields (Option String) := .defaulted name (.option .text) none
  let fields : Json.Fields (Bool × Option String × Option String) :=
    (fun success data error => (success, data, error)) <$> .required "success" .bool <*>
      text "data" <*> text "error"
  fields.reader

/-- Reads an answer. -/
def readResponse (response : HttpResponse) : Except ForwardError String :=
  match replyReader.ofText response.body with
  | .ok (true, data, _) => .ok (data.getD "")
  | .ok (false, _, error) => .error (.refused (error.getD (statusText response.status)))
  | .error _ => .error (.garbled response)

/-- Sends a request and reads the answer. -/
def forward [Wildcard.Limit] [Refusals] (c : Config) (owner : String) (r : Request) :
    Handler (Except ForwardError String) := do
  return readResponse (← handle c owner (message r))

end StagedRollout.Api
