/-
# Messages of the control API

What arrives at the control API and what leaves it, and which of its paths a message is for.
-/
import StagedRollout.Api.Uri
import StagedRollout.Json.Basic
import StagedRollout.Text.Blank

namespace StagedRollout.Api

/-- A message to the API. -/
structure HttpRequest where
  method : String
  /-- The path of the address that the message is for. -/
  path : String
  contentType : Option String
  body : String
deriving DecidableEq, Repr

/-- The message to an address; there is none to a text that is no address. -/
def HttpRequest.to? (method address : String) (contentType : Option String) (body : String) :
    Option HttpRequest :=
  (Uri.path? address).map fun path => ⟨method, path, contentType, body⟩

/-- An answer of the API. -/
structure HttpResponse where
  status : Nat
  body : String
deriving DecidableEq, Repr

/-- What the library that serves the API says, below a status, of a message that no handler is asked
about. -/
class Refusals where
  text : HttpRequest → Nat → String

/-- The answer to a message that no handler is asked about. -/
def HttpRequest.refused [Refusals] (q : HttpRequest) (status : Nat) : HttpResponse :=
  ⟨status, Refusals.text q status⟩

/-- The reason phrases of the statuses that the API answers with. -/
def reasonPhrase : Nat → String
  | 200 => "OK"
  | 202 => "Accepted"
  | 400 => "Bad Request"
  | 404 => "Not Found"
  | 405 => "Method Not Allowed"
  | 409 => "Conflict"
  | 413 => "Payload Too Large"
  | 415 => "Unsupported Media Type"
  | 422 => "Unprocessable Entity"
  | 500 => "Internal Server Error"
  | 503 => "Service Unavailable"
  | _ => "<unknown status code>"

/-- A status as it is shown. -/
def statusText (status : Nat) : String := s!"{status} {reasonPhrase status}"

/-! ## Routes -/

/-- A path of the API, with the segment that names something as it is written. -/
inductive Route where
  | commands
  | actionStatus (segment : String)
  | targetActions (segment : String)
deriving DecidableEq, Repr

/-- The route of a path, if it is one of the API's. -/
def Route.ofPath (path : String) : Option Route :=
  match (Text.splitAll '/' path.toList).map String.ofList with
  | ["", "api", "v1", "commands"] => some .commands
  | ["", "api", "v1", "actions", id, "status"] => some (.actionStatus id)
  | ["", "api", "v1", "targets", id, "actions"] => some (.targetActions id)
  | _ => none

end StagedRollout.Api
