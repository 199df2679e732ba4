/-
# Scheduler cycles

Several schedulers may share a store.  In every cycle a scheduler goes over the rollouts that it
may act on, those of more weight first, takes each one's lease, drives it forward and gives the
lease up.  A rollout that somebody else holds is left for the next cycle.  A rollout whose step
fails for a reason that may pass is tried again later, and given up behind a number of failures
in a row.
-/
import StagedRollout.Scheduler.Backoff
import StagedRollout.Scheduler.Live
import StagedRollout.Scheduler.Lock

namespace StagedRollout

/-- The failures in a row of a rollout. -/
structure Retry where
  failures : Nat
  /-- The time in seconds before which it is not tried again. -/
  notBefore : Nat
deriving DecidableEq, Repr

/-- The rollouts whose last step failed. -/
abbrev Retries := OrderedMap Retry

/-- What a cycle did. -/
structure CycleReport where
  /-- Rollouts that something was done for. -/
  advanced : Nat
  /-- Rollouts that somebody else holds. -/
  contended : Nat
  failed : Nat
  /-- Rollouts that wait behind a failure. -/
  skipped : Nat
deriving DecidableEq, Repr

/-- A cycle that has done nothing. -/
def CycleReport.zero : CycleReport := ⟨0, 0, 0, 0⟩

/-- One worker of a daemon, or a daemon with one worker. -/
structure Scheduler where
  lock : RolloutLock
  /-- How live rollouts are resolved again, if they are. -/
  live : Option Live
  settings : SchedulerSettings

namespace Scheduler

/-- Whether a cycle at a time in seconds may act on a rollout. -/
def isCandidate (now : Nat) (r : Rollout) : Bool :=
  !r.deleted && r.state.isSchedulable && (decide (r.state ≠ .ready) || r.startPolicy.isDue now)

/-- Whether a rollout is taken before another one, or is the same. -/
def precedes (a b : Rollout) : Bool :=
  decide (b.weight < a.weight) || (decide (a.weight = b.weight) && decide (a.id ≤ b.id))

/-- The rollouts that a cycle may act on, in the order in which it takes them. -/
def candidates (now : Nat) (rollouts : List Rollout) : List RolloutId :=
  ((rollouts.filter (isCandidate now)).mergeSort precedes).map (·.id)

/-! ## One rollout -/

/-- Drives a rollout forward under a guard, and tells whether anything was done.  The lease is
extended before a live rollout is resolved again, which may take its time. -/
def stepUnder (s : Scheduler) (id : RolloutId) (now : Nat) (g : Guard) :
    Operation SchedulerError Bool := do
  let adv ← Operation.mapError .rollout (Progression.advance (some g.fence) id now)
  match s.live with
  | none => return adv.progressed
  | some live =>
    let (held, g) ← s.lock.renew g
    if held then
      let added ← Operation.mapError .rollout (live.refresh (some g.fence) id now)
      return adv.progressed || decide (0 < added)
    else return adv.progressed

/-- Takes a rollout, drives it forward and gives it up.  A lease that cannot be given up is left
to run out. -/
def step (s : Scheduler) (id : RolloutId) (now : Nat) : Operation SchedulerError Bool := do
  let g ← s.lock.acquire id
  let result ← ExceptT.lift (ExceptT.run (s.stepUnder id now g))
  let _ ← ExceptT.lift (ExceptT.run (s.lock.release g))
  Operation.ofExcept result

/-! ## Failures -/

/-- What is recorded when a rollout is given up. -/
def giveUpText (e : SchedulerError) : String := s!"gave up after repeated failures: {e.message}"

/-- Records under a guard that a rollout is given up. -/
def giveUpUnder (id : RolloutId) (now : Nat) (e : SchedulerError) (g : Guard) :
    Operation SchedulerError Unit :=
  Operation.mapError .rollout do
    let r ← Progression.requireRollout id
    let r ← Operation.ofExcept (r.apply .retriesExhausted now)
    Progression.saveRollout (some g.fence) { r with lastError := some (giveUpText e) }

/-- Gives a rollout up. -/
def giveUp (s : Scheduler) (id : RolloutId) (now : Nat) (e : SchedulerError) :
    Operation SchedulerError Unit := do
  let g ← s.lock.acquire id
  let result ← ExceptT.lift (ExceptT.run (giveUpUnder id now e g))
  s.lock.release g
  Operation.ofExcept result

/-- The failures in a row of a rollout. -/
def failuresOf (retries : Retries) (id : RolloutId) : Nat :=
  match retries.find? id with
  | some r => r.failures
  | none => 0

/-- Remembers another failure of a rollout, or gives it up and forgets its failures. -/
def recordFailure (s : Scheduler) (id : RolloutId) (now : Nat) (e : SchedulerError)
    (retries : Retries) : Program Retries := do
  let failures := failuresOf retries id + 1
  if s.settings.maxRetries ≤ failures then
    let _ ← ExceptT.run (s.giveUp id now e)
    return retries.erase id
  else
    let wait :=
      Backoff.wait s.settings.intervalMillis s.settings.backoffMaxMillis failures / 1000
    return retries.insert id ⟨failures, now + wait⟩

/-! ## Cycles -/

/-- Whether a rollout waits behind a failure. -/
def waits (retries : Retries) (id : RolloutId) (now : Nat) : Bool :=
  match retries.find? id with
  | some r => decide (now < r.notBefore)
  | none => false

/-- Takes one rollout in a cycle. -/
def visit (s : Scheduler) (now : Nat) (id : RolloutId) (retries : Retries)
    (report : CycleReport) : Program (Retries × CycleReport) := do
  if waits retries id now then
    return (retries, { report with skipped := report.skipped + 1 })
  else
    match ← ExceptT.run (s.step id now) with
    | .ok progressed =>
      let advanced := if progressed then report.advanced + 1 else report.advanced
      return (retries.erase id, { report with advanced := advanced })
    | .error (.lockContention _ _) =>
      return (retries, { report with contended := report.contended + 1 })
    | .error e =>
      if e.isLeaseLost then
        -- nothing was written without the lease, so this counts as held by somebody else
        return (retries, { report with contended := report.contended + 1 })
      else
        let report := { report with failed := report.failed + 1 }
        if e.isTransient then return (← s.recordFailure id now e retries, report)
        else return (retries, report)

/-- Takes rollouts one after the other. -/
def visitAll (s : Scheduler) (now : Nat) :
    List RolloutId → Retries → CycleReport → Program (Retries × CycleReport)
  | [], retries, report => return (retries, report)
  | id :: rest, retries, report => do
    let (retries, report) ← s.visit now id retries report
    s.visitAll now rest retries report

/-- One cycle at a time in seconds. -/
def cycle (s : Scheduler) (now : Nat) (retries : Retries) :
    Program (Retries × CycleReport) := do
  match ← Program.look Store.listRollouts with
  | .ok rollouts => s.visitAll now (candidates now rollouts) retries .zero
  | .error _ => return (retries, { CycleReport.zero with failed := 1 })

/-- Cycles by the clock. -/
def runCycles (s : Scheduler) : Nat → Retries → Program Retries
  | 0, retries => return retries
  | ticks + 1, retries => do
    let now ← Program.nowSeconds
    let (retries, _) ← s.cycle now retries
    s.runCycles ticks retries

end Scheduler

end StagedRollout
