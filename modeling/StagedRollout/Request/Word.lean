/-
# The words of requests

How the words that an operator types for a rollout are read.  Names of choices may be written in
upper case and with hyphens; a condition is a kind and a number with a colon between them; a
start is `manual`, `auto` or a time in seconds.
-/
import StagedRollout.Request.Basic
import StagedRollout.Request.Error
import StagedRollout.Operator.Create

namespace StagedRollout.Request

open Text

/-- The choice that a word names; `what` tells what was asked for. -/
def readChoice {α : Type} [Named α] (what word : String) : Except RequestError α :=
  match Text.keyword? word with
  | some a => .ok a
  | none => .error (.unknownWord what word)

/-- A number of at most `limit` with white space around it. -/
def readAmount (limit : Nat) (cs : List Char) : Except RequestError Nat :=
  (readNat limit (String.ofList (trimChars cs))).mapError .number

/-- A condition: a kind and a number with a colon between them. -/
def readCondition (word : String) : Except RequestError Condition :=
  match splitOnce ':' word.toList with
  | none => .error (.malformedCondition word)
  | some (kind, amount) =>
    let kind := String.ofList (trimChars kind)
    if kind = "threshold" then do
      let percent ← readAmount max8 amount
      if 100 < percent then throw (.thresholdTooHigh percent)
      return .threshold percent
    else if kind = "count" then (readAmount max32 amount).map .count
    else .error (.unknownCondition kind)

/-- Who starts a rollout. -/
def readStart (word : String) : Except RequestError StartPolicy :=
  if word = "manual" then .ok .manual
  else if word = "auto" then .ok .auto
  else
    match readNat max64 word with
    | .ok startAt => .ok (.scheduled startAt)
    | .error _ => .error (.malformedStart word)

/-- The devices of a group that are listed with commas between them. -/
def readMembers (word : String) : List TargetId :=
  (((splitAll ',' word.toList).map trimChars).filter fun cs => !cs.isEmpty).map String.ofList

/-- The groups of a new rollout.  Listed groups count before a number of groups, and that before
shares. -/
def readGroups (order : RolloutOrder) : Except RequestError GroupSpec :=
  if order.group ≠ [] then .ok (.explicit (order.group.map readMembers))
  else
    match order.groupCount with
    | some n => .ok (.count n)
    | none => if order.groups ≠ [] then .ok (.percentages order.groups) else .error .noGroups

/-- The error condition of a new rollout, if it has one. -/
def readErrorCondition : Option String → Except RequestError (Option Condition)
  | none => .ok none
  | some word => (readCondition word).map some

/-- A new rollout from its words. -/
def readOrder (order : RolloutOrder) : Except RequestError NewRollout := do
  let groups ← readGroups order
  let success ← readCondition order.success
  let error ← readErrorCondition order.error
  let errorAction ← readChoice "error action" order.errorAction
  let start ← readStart order.start
  let actionType ← readChoice "action type" order.actionType
  return {
    NewRollout.standard order.name order.filter order.distribution groups with
    description := order.description
    successCondition := success
    errorCondition := error
    errorAction := errorAction
    startPolicy := start
    resolveMode := if order.live then .live else .snapshot
    actionType := actionType
    weight := order.weight
    approvalRequired := if order.requireApproval then some true else none }

end StagedRollout.Request
