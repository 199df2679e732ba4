/-
# The mailbox of status reports

Devices report how far they have come.  Reports wait in a bounded queue for the aggregator, which
applies them to the store one at a time.  Once the mailbox is closed it takes no further report,
but those that it holds are still applied; then it has ended.
-/
import StagedRollout.Program
import StagedRollout.Rollout.Error
import StagedRollout.Store.Membership

namespace StagedRollout

/-- A device's word on one of its actions. -/
structure StatusReport where
  action : ActionId
  status : ActionStatus
  /-- When it was given, in seconds. -/
  reportedAt : Nat
deriving DecidableEq, Repr

namespace StatusReport

/-- Applies a report to the store.  Reports on actions that are unknown or have ended change
nothing. -/
def apply (fence : Option Fence) (r : StatusReport) : Operation RolloutError ReportOutcome :=
  Operation.mapError .persistence
    (Operation.commit fence (Transaction.report r.action r.status r.reportedAt))

end StatusReport

/-- Reports that wait for the aggregator. -/
structure Mailbox where
  /-- How many reports may wait. -/
  capacity : Nat
  waiting : List StatusReport
  /-- Whether further reports are refused. -/
  closed : Bool
deriving DecidableEq, Repr

/-- The answer to an attempt to send a report. -/
inductive Sending where
  | accepted
  /-- The sender has to wait. -/
  | full
  | refused
deriving DecidableEq, Repr

/-- The answer to an attempt to receive a report. -/
inductive Receiving where
  | report (r : StatusReport)
  /-- The aggregator has to wait. -/
  | nothing
  /-- There will be no further report. -/
  | ended
deriving DecidableEq, Repr

namespace Mailbox

/-- An empty mailbox with room for a number of reports, at least one. -/
def ofCapacity (capacity : Nat) : Mailbox := ⟨max capacity 1, [], false⟩

/-- Sends a report. -/
def send (m : Mailbox) (r : StatusReport) : Sending × Mailbox :=
  if m.closed then (.refused, m)
  else if m.waiting.length < m.capacity then
    (.accepted, { m with waiting := m.waiting ++ [r] })
  else (.full, m)

/-- Receives the report that waited longest. -/
def receive (m : Mailbox) : Receiving × Mailbox :=
  match m.waiting with
  | r :: rest => (.report r, { m with waiting := rest })
  | [] => (if m.closed then .ended else .nothing, m)

/-- Refuses further reports, at a signal or because nobody is left to send one. -/
def close (m : Mailbox) : Mailbox := { m with closed := true }

/-! ## The aggregator -/

/-- Applies a report.  One that the store refuses is dropped; its device will repeat it. -/
def applyDropping (fence : Option Fence) (r : StatusReport) : Program Unit := do
  let _ ← ExceptT.run (r.apply fence)
  return ()

/-- Applies reports in order. -/
def applyAll (fence : Option Fence) : List StatusReport → Program Unit
  | [] => return ()
  | r :: rest => do
    applyDropping fence r
    applyAll fence rest

/-- Applies every report that waits. -/
def drain (fence : Option Fence) (m : Mailbox) : Program Mailbox := do
  applyAll fence m.waiting
  return { m with waiting := [] }

/-- Sends a report, behind those that wait if there is no room. -/
def submit (fence : Option Fence) (r : StatusReport) (m : Mailbox) :
    Program (Except RolloutError Unit × Mailbox) := do
  match m.send r with
  | (.accepted, m) => return (.ok (), m)
  | (.refused, m) => return (.error .mailboxClosed, m)
  | (.full, m) =>
    -- the aggregator makes room before the sender goes on
    let m ← m.drain fence
    match m.send r with
    | (.accepted, m) => return (.ok (), m)
    | (_, m) => return (.error .mailboxClosed, m)

/-- Sends reports one after the other. -/
def submitAll (fence : Option Fence) : List StatusReport → Mailbox → Program Mailbox
  | [], m => return m
  | r :: rest, m => do
    let (_, m) ← m.submit fence r
    submitAll fence rest m

theorem waiting_send_accepted {m m' : Mailbox} {r : StatusReport}
    (h : m.send r = (.accepted, m')) : m'.waiting = m.waiting ++ [r] := by
  unfold send at h
  split at h
  · simp at h
  · split at h
    · simp only [Prod.mk.injEq, true_and] at h
      rw [← h]
    · simp at h

theorem send_closed {m : Mailbox} (h : m.closed = true) (r : StatusReport) :
    m.send r = (.refused, m) := by
  simp [send, h]

end Mailbox

end StagedRollout
