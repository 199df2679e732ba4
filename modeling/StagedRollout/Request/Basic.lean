/-
# Requests

What operators and devices ask of the system, as they typed it: words are not interpreted yet.
A request is carried out in the process that holds the store; another process sends it there.
-/

namespace StagedRollout

/-- The words that make a new rollout. -/
structure RolloutOrder where
  name : String
  filter : String
  distribution : String
  /-- Shares of the groups. -/
  groups : List Nat
  /-- The number of groups of the same size. -/
  groupCount : Option Nat
  /-- The groups themselves, each with commas between its devices. -/
  group : List String
  success : String
  error : Option String
  errorAction : String
  start : String
  live : Bool
  actionType : String
  weight : Nat
  description : Option String
  requireApproval : Bool
deriving DecidableEq, Repr

/-- A request on rollouts. -/
inductive RolloutRequest where
  | create (order : RolloutOrder)
  | approve (name : String)
  | deny (name : String)
  | start (name : String)
  | pause (name : String)
  | resume (name : String)
  | stop (name : String)
  | delete (name : String)
  | triggerNext (name : String)
  | list
  | detail (name : String)
deriving DecidableEq, Repr

/-- A request on the device registry. -/
inductive TargetRequest where
  | add (id : String) (name : Option String) (tags : List String)
      (attributes : List (String × String))
  | remove (id : String)
  | list (filter : Option String)
deriving DecidableEq, Repr

/-- A request on saved filters. -/
inductive FilterRequest where
  | save (id query : String) (name : Option String)
  | remove (id : String)
  | list
deriving DecidableEq, Repr

/-- A request of a device. -/
inductive DeviceRequest where
  /-- Tells how far an action has come. -/
  | report (action status : String)
  /-- Asks for open actions. -/
  | poll (target : String)
deriving DecidableEq, Repr

/-- What may be asked. -/
inductive Request where
  | rollout (r : RolloutRequest)
  | target (r : TargetRequest)
  | filter (r : FilterRequest)
  | device (r : DeviceRequest)
  | cleanup
deriving DecidableEq, Repr

end StagedRollout
