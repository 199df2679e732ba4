/-
# Store errors

Why the store refuses a request.  A refused write changes nothing.
-/
import StagedRollout.Lease.Basic

namespace StagedRollout

/-- The rows that others refer to. -/
inductive RowKind where
  | rollout
  | group
deriving DecidableEq, Repr

/-- The kind of a row as it is written in an error. -/
def RowKind.text : RowKind → String
  | .rollout => "rollout"
  | .group => "group"

/-- Why the store refuses a request. -/
inductive StoreError where
  /-- The file is no store. -/
  | cannotOpen (reason : String)
  /-- Another process has the file open. -/
  | locked (path : String)
  | readFailed (reason : String)
  | writeFailed (reason : String)
  /-- A row cannot be decoded. -/
  | damagedRow (reason : String)
  | notFound (kind : RowKind) (id : String)
  /-- A rollout with the id exists. -/
  | conflict (id : RolloutId)
  /-- A fenced write whose lease has no row. -/
  | leaseMissing (key : String)
  /-- A fenced write whose lease has run out or belongs to somebody else. -/
  | leaseLost (fence : Fence) (found : Lease)
deriving DecidableEq, Repr

namespace StoreError

/-- What an operator is told. -/
def message : StoreError → String
  | cannotOpen reason => s!"failed to open database: {reason}"
  | locked path => s!"database is locked by another process: {path}"
  | readFailed reason => s!"read error: {reason}"
  | writeFailed reason => s!"write error: {reason}"
  | damagedRow reason => s!"deserialization error: {reason}"
  | notFound kind id => s!"not found: {kind.text} {id}"
  | conflict id => s!"already exists: rollout {id}"
  | leaseMissing key => s!"lease lost: {key} has no lease"
  | leaseLost fence found =>
    s!"lease lost: {fence.key} (token {fence.token}, now held by {found.owner} with token " ++
      s!"{found.fencing})"

/-- Whether a fence turned the write away. -/
def isFenced : StoreError → Bool
  | leaseMissing _ | leaseLost _ _ => true
  | _ => false

end StoreError

end StagedRollout
