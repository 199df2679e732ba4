/-
# The device registry

Registered devices and the filters that are saved under a name for use in rollouts.
-/
import StagedRollout.Ordered.Map
import StagedRollout.Rollout.Basic

namespace StagedRollout

/-- A registered device. -/
structure Target where
  id : TargetId
  name : String
  attributes : OrderedMap String
  tags : List String
  registeredAt : Nat
  lastPollAt : Option Nat
deriving DecidableEq, Repr

/-- A filter expression that rollouts refer to as `@` and its id. -/
structure SavedFilter where
  id : String
  name : String
  query : String
  createdAt : Nat
deriving DecidableEq, Repr, Inhabited

end StagedRollout
