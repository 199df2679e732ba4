/-
# Actions and their counters

An action brings a rollout's distribution to one device.  Devices report its status.  A group
counts its actions by status, one counter for each status.
-/
import StagedRollout.Rollout.Basic
import StagedRollout.Ratio

namespace StagedRollout

/-- How far a device has come. -/
inductive ActionStatus where
  | created
  | running
  | download
  | canceling
  | canceled
  | finishedSuccess
  | finishedError
deriving DecidableEq, Repr, Inhabited

namespace ActionStatus

instance : Named ActionStatus where
  choices := [created, running, download, canceling, canceled, finishedSuccess, finishedError]
  name
    | created => "created"
    | running => "running"
    | download => "download"
    | canceling => "canceling"
    | canceled => "canceled"
    | finishedSuccess => "finished_success"
    | finishedError => "finished_error"
  mem_choices a := by cases a <;> simp
  name_injective a b := by cases a <;> cases b <;> simp

/-- A terminal action takes no further report. -/
def isTerminal : ActionStatus → Bool
  | canceled | finishedSuccess | finishedError => true
  | _ => false

/-- An open action has neither ended nor been asked to cancel. -/
def isOpen : ActionStatus → Bool
  | created | running | download => true
  | _ => false

/-- The status that a device's word stands for: a name, or `success` or `error` for the two
ends.  A refusal quotes the word in the spelling of names. -/
def ofWord (word : String) : Except String ActionStatus :=
  let spelled := Text.snakeCase word
  match Named.ofName? spelled with
  | some status => .ok status
  | none =>
    if spelled = "success" then .ok finishedSuccess
    else if spelled = "error" then .ok finishedError
    else .error s!"unknown action status '{spelled}'"

end ActionStatus

/-- The deployment of a rollout's distribution to one device. -/
structure Action where
  id : ActionId
  rolloutId : RolloutId
  groupId : GroupId
  targetId : TargetId
  distribution : String
  actionType : ActionType
  status : ActionStatus
  weight : Nat
  createdAt : Nat
  /-- When its status was last set. -/
  lastStatusAt : Nat
deriving DecidableEq, Repr, Inhabited

/-- The id of the action for a device in a group. -/
def Action.idOf (group : GroupId) (target : TargetId) : ActionId := group ++ ":" ++ target

/-- The number of a group's actions for each status. -/
structure StatusCounts where
  created : Nat
  running : Nat
  download : Nat
  canceling : Nat
  canceled : Nat
  finishedSuccess : Nat
  finishedError : Nat
deriving DecidableEq, Repr, Inhabited

namespace StatusCounts

/-- No actions. -/
def zero : StatusCounts := ⟨0, 0, 0, 0, 0, 0, 0⟩

/-- The counter of a status. -/
def get (c : StatusCounts) : ActionStatus → Nat
  | .created => c.created
  | .running => c.running
  | .download => c.download
  | .canceling => c.canceling
  | .canceled => c.canceled
  | .finishedSuccess => c.finishedSuccess
  | .finishedError => c.finishedError

/-- The counters with one of them changed. -/
def modify (c : StatusCounts) (status : ActionStatus) (f : Nat → Nat) : StatusCounts :=
  match status with
  | .created => { c with created := f c.created }
  | .running => { c with running := f c.running }
  | .download => { c with download := f c.download }
  | .canceling => { c with canceling := f c.canceling }
  | .canceled => { c with canceled := f c.canceled }
  | .finishedSuccess => { c with finishedSuccess := f c.finishedSuccess }
  | .finishedError => { c with finishedError := f c.finishedError }

/-- Counts a new action. -/
def increment (c : StatusCounts) (status : ActionStatus) : StatusCounts :=
  c.modify status (· + 1)

/-- Drops an action; a counter at zero stays there. -/
def decrement (c : StatusCounts) (status : ActionStatus) : StatusCounts :=
  c.modify status (· - 1)

/-- Moves an action from one status to another. -/
def move (c : StatusCounts) (source dest : ActionStatus) : StatusCounts :=
  if source = dest then c else (c.decrement source).increment dest

/-- All actions. -/
def total (c : StatusCounts) : Nat :=
  c.created + c.running + c.download + c.canceling + c.canceled + c.finishedSuccess +
    c.finishedError

/-- Actions that wait for a device. -/
def pending (c : StatusCounts) : Nat := c.created + c.running + c.download + c.canceling

/-- Actions that have ended. -/
def terminal (c : StatusCounts) : Nat := c.canceled + c.finishedSuccess + c.finishedError

/-- The bits of the share of actions that ended well. -/
def successRatio (c : StatusCounts) : Nat := Ratio.bits c.finishedSuccess c.total

/-- The bits of the share of actions that failed. -/
def errorRatio (c : StatusCounts) : Nat := Ratio.bits c.finishedError c.total

theorem get_modify (c : StatusCounts) (s t : ActionStatus) (f : Nat → Nat) :
    (c.modify s f).get t = if t = s then f (c.get t) else c.get t := by
  cases s <;> cases t <;> simp [modify, get]

theorem get_increment (c : StatusCounts) (s t : ActionStatus) :
    (c.increment s).get t = c.get t + if t = s then 1 else 0 := by
  rw [increment, get_modify]
  split <;> rfl

theorem get_decrement (c : StatusCounts) (s t : ActionStatus) :
    (c.decrement s).get t = c.get t - if t = s then 1 else 0 := by
  rw [decrement, get_modify]
  split <;> rfl

theorem ext_get {c d : StatusCounts} (h : ∀ s, c.get s = d.get s) : c = d := by
  have h1 := h .created
  have h2 := h .running
  have h3 := h .download
  have h4 := h .canceling
  have h5 := h .canceled
  have h6 := h .finishedSuccess
  have h7 := h .finishedError
  cases c
  cases d
  simp_all [get]

theorem total_eq (c : StatusCounts) : c.total = c.pending + c.terminal := by
  simp only [total, pending, terminal]
  omega

end StatusCounts

end StagedRollout
