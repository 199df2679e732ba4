/-
# What a scheduler remembers of failures

A scheduler counts the failures of a rollout in a row and waits longer behind every one of them.
What it remembers is a function of what was done.  Cycles are run with a log of their visits, which
changes nothing about what they do (`Scheduler.cyclesAt_eq`), and behind any number of cycles the
entry of a rollout is read off its last failures in the log (`Scheduler.Faithful`).

Nothing is assumed about the store, the clock, the lock or the devices: the effects of the cycles
may be answered in any way (`Program.Returns`).
-/
import Mathlib.Tactic.Common
import StagedRollout.Scheduler.Cycle

namespace StagedRollout

/-! ## Programs that are answered in any way -/

namespace Program

variable {α β : Type}

/-- The program may end with the value.  How its effects are answered is left open: the store may be
any at each of them, and others may have changed it in between. -/
def Returns : Program α → α → Prop
  | done a, b => b = a
  | step _ next, b => ∃ answer, (next answer).Returns b

lemma returns_run (p : Program α) (env : Surroundings) (w : World) :
    p.Returns (p.run env w).1 := by
  induction p generalizing w with
  | done a => rfl
  | step e next ih => exact ⟨_, ih _ _⟩

lemma returns_bind {p : Program α} {f : α → Program β} {b : β} (h : (p >>= f).Returns b) :
    ∃ a, p.Returns a ∧ (f a).Returns b := by
  induction p with
  | done a => exact ⟨a, rfl, h⟩
  | step e next ih =>
    obtain ⟨answer, hnext⟩ := h
    obtain ⟨a, ha, hb⟩ := ih answer hnext
    exact ⟨a, ⟨answer, ha⟩, hb⟩

end Program

/-- Whether a failure of a step counts: it may pass, and it is not the news of a lost lease.  That
somebody else has the rollout does not count either. -/
def SchedulerError.isCounted (e : SchedulerError) : Bool := e.isTransient && !e.isLeaseLost

namespace Scheduler

variable {s : Scheduler} {settings : SchedulerSettings} {now : Nat} {id : RolloutId}
  {retries retries' : Retries}

/-! ## Steps that tell how they end -/

/-- How a step ends that does not fail. -/
inductive Ending where
  /-- It was made under the lease. -/
  | made (progressed : Bool)
  /-- The lease was found lost when it was to be extended, so a live rollout was not resolved
  again. -/
  | lapsed (progressed : Bool)

/-- What a step tells of its end: whether anything was done. -/
def Ending.progressed : Ending → Bool
  | made progressed | lapsed progressed => progressed

/-- Drives a rollout forward under a guard, and tells how that ends. -/
def endUnder (s : Scheduler) (id : RolloutId) (now : Nat) (g : Guard) :
    Operation SchedulerError Ending := do
  let adv ← Operation.mapError .rollout (Progression.advance (some g.fence) id now)
  match s.live with
  | none => return .made adv.progressed
  | some live =>
    let (held, g) ← s.lock.renew g
    if held then
      let added ← Operation.mapError .rollout (live.refresh (some g.fence) id now)
      return .made (adv.progressed || decide (0 < added))
    else return .lapsed adv.progressed

/-- Takes a rollout, drives it forward and gives it up, and tells how that ends. -/
def stepEnding (s : Scheduler) (id : RolloutId) (now : Nat) : Operation SchedulerError Ending := do
  let g ← s.lock.acquire id
  let result ← ExceptT.lift (ExceptT.run (s.endUnder id now g))
  let _ ← ExceptT.lift (ExceptT.run (s.lock.release g))
  Operation.ofExcept result

lemma stepUnder_eq (g : Guard) :
    s.stepUnder id now g = Ending.progressed <$> s.endUnder id now g := by
  unfold stepUnder endUnder
  rw [map_bind]
  refine congrArg _ (funext fun adv => ?_)
  cases s.live with
  | none => rfl
  | some live =>
    dsimp only
    rw [map_bind]
    refine congrArg _ (funext fun (held, g) => ?_)
    cases held with
    | false => rfl
    | true =>
      simp only [if_true, map_bind]
      rfl

/-- **A step does what it does when it tells how it ends.** -/
lemma run_step (s : Scheduler) (id : RolloutId) (now : Nat) :
    ExceptT.run (s.step id now) =
      Except.map Ending.progressed <$> ExceptT.run (s.stepEnding id now) := by
  rw [← ExceptT.run_map]
  refine congrArg ExceptT.run ?_
  unfold step stepEnding
  rw [map_bind]
  refine congrArg _ (funext fun g => ?_)
  have hlift : (ExceptT.lift (ExceptT.run (s.stepUnder id now g)) : Operation SchedulerError _) =
      Except.map Ending.progressed <$> ExceptT.lift (ExceptT.run (s.endUnder id now g)) := by
    rw [stepUnder_eq, ExceptT.run_map]
    refine ExceptT.ext ?_
    rw [ExceptT.run_lift, ExceptT.run_map, ExceptT.run_lift, Functor.map_map, Functor.map_map]
    rfl
  rw [hlift, bind_map_left, map_bind]
  refine congrArg _ (funext fun result => ?_)
  rw [map_bind]
  exact congrArg _ (funext fun _ => by cases result <;> rfl)

/-! ## Visits -/

/-- What comes of a rollout that a cycle takes. -/
inductive Outcome where
  /-- It waits behind a failure, and no step is made. -/
  | waited
  /-- A step is made. -/
  | stepped (progressed : Bool)
  /-- A step is made up to where its lease is found lost. -/
  | lapsed (progressed : Bool)
  /-- The step fails, which does not count. -/
  | refused (e : SchedulerError)
  /-- The step fails, which counts. -/
  | failed (e : SchedulerError)
  /-- The step fails, which counts, and the rollout is given up. -/
  | givenUp (e : SchedulerError) (result : Except SchedulerError Unit)

/-- What is remembered behind a visit. -/
def Outcome.update (settings : SchedulerSettings) (now : Nat) (id : RolloutId)
    (retries : Retries) : Outcome → Retries
  | waited | refused _ => retries
  | stepped _ | lapsed _ | givenUp _ _ => retries.erase id
  | failed _ =>
    let failures := failuresOf retries id + 1
    let wait := Backoff.wait settings.intervalMillis settings.backoffMaxMillis failures / 1000
    retries.insert id ⟨failures, now + wait⟩

/-- What is counted behind a visit. -/
def Outcome.count (report : CycleReport) : Outcome → CycleReport
  | waited => { report with skipped := report.skipped + 1 }
  | stepped progressed | lapsed progressed =>
    { report with advanced := if progressed then report.advanced + 1 else report.advanced }
  | refused (.lockContention _ _) => { report with contended := report.contended + 1 }
  | refused e =>
    if e.isLeaseLost then { report with contended := report.contended + 1 }
    else { report with failed := report.failed + 1 }
  | failed _ | givenUp _ _ => { report with failed := report.failed + 1 }

/-- Takes one rollout in a cycle, and tells what comes of it. -/
def attend (s : Scheduler) (now : Nat) (id : RolloutId) (retries : Retries) :
    Program Outcome := do
  if waits retries id now then return .waited
  else
    match ← ExceptT.run (s.stepEnding id now) with
    | .ok (.made progressed) => return .stepped progressed
    | .ok (.lapsed progressed) => return .lapsed progressed
    | .error e =>
      if e.isCounted then
        if s.settings.maxRetries ≤ failuresOf retries id + 1 then
          return .givenUp e (← ExceptT.run (s.giveUp id now e))
        else return .failed e
      else return .refused e

/-- **What a visit does, remembers and counts is told by its outcome.** -/
lemma visit_eq_attend (s : Scheduler) (now : Nat) (id : RolloutId) (retries : Retries)
    (report : CycleReport) :
    s.visit now id retries report = do
      let outcome ← s.attend now id retries
      return (outcome.update s.settings now id retries, outcome.count report) := by
  unfold visit attend
  split
  · rfl
  rw [run_step, bind_map_left, bind_assoc]
  refine congrArg _ (funext fun result => ?_)
  cases result with
  | ok ending => cases ending <;> rfl
  | error e =>
    dsimp only [Except.map]
    cases e with
    | lockContention rollout holder => rfl
    | rollout e | store e =>
      dsimp only [SchedulerError.isCounted]
      split
      -- the lease is lost
      · rename_i hlost
        simp only [hlost, Bool.not_true, Bool.and_false, Bool.false_eq_true, if_false]
        simp only [Program.pure_eq, Program.done_bind, Outcome.update, Outcome.count, hlost,
          if_true]
      · rename_i hlost
        simp only [hlost, Bool.not_false, Bool.and_true]
        split
        · unfold recordFailure
          dsimp only
          split
          · rw [bind_assoc, bind_assoc]
            rfl
          · rfl
        · simp only [Program.pure_eq, Program.done_bind, Outcome.update, Outcome.count, hlost,
            Bool.false_eq_true, if_false]

/-! ## Logs -/

/-- A rollout that a cycle took. -/
structure Visit where
  id : RolloutId
  /-- The time of the cycle in seconds. -/
  now : Nat
  outcome : Outcome

/-- The failures of a rollout that count, since its last step that did not fail and since it was
last given up.  A step that finds its lease lost when it is to be extended does not fail, and ends a
row of failures as any other does.  Here and in a log the last visit comes first. -/
def streak (id : RolloutId) : List Visit → List Visit
  | [] => []
  | v :: log =>
    if v.id = id then
      match v.outcome with
      | .failed _ => v :: streak id log
      | .stepped _ | .lapsed _ | .givenUp _ _ => []
      | .waited | .refused _ => streak id log
    else streak id log

lemma streak_of_ne {v : Visit} {id : RolloutId} {log : List Visit} (h : v.id ≠ id) :
    streak id (v :: log) = streak id log := by
  simp only [streak, h, if_false]

/-- What is remembered behind failures in a row: how many there are, and how long the rollout waits
behind the last one. -/
def remembered (settings : SchedulerSettings) : List Visit → Option Retry
  | [] => none
  | last :: earlier =>
    let failures := earlier.length + 1
    let wait := Backoff.wait settings.intervalMillis settings.backoffMaxMillis failures / 1000
    some ⟨failures, last.now + wait⟩

/-- A rollout does not wait behind its failures in a log. -/
def Due (settings : SchedulerSettings) (log : List Visit) (id : RolloutId) (now : Nat) : Prop :=
  ∀ r, remembered settings (streak id log) = some r → r.notBefore ≤ now

/-- What may come of a visit behind a log. -/
inductive Visit.Fits (settings : SchedulerSettings) (log : List Visit) : Visit → Prop
  | waited {id : RolloutId} {now : Nat} {r : Retry}
      (hr : remembered settings (streak id log) = some r) (hnow : now < r.notBefore) :
      Fits settings log ⟨id, now, .waited⟩
  | stepped {id : RolloutId} {now : Nat} {progressed : Bool} (hdue : Due settings log id now) :
      Fits settings log ⟨id, now, .stepped progressed⟩
  | lapsed {id : RolloutId} {now : Nat} {progressed : Bool} (hdue : Due settings log id now) :
      Fits settings log ⟨id, now, .lapsed progressed⟩
  | refused {id : RolloutId} {now : Nat} {e : SchedulerError} (hdue : Due settings log id now)
      (he : e.isCounted = false) : Fits settings log ⟨id, now, .refused e⟩
  /-- The rollout may fail again. -/
  | failed {id : RolloutId} {now : Nat} {e : SchedulerError} (hdue : Due settings log id now)
      (he : e.isCounted = true) (hfew : (streak id log).length + 1 < settings.maxRetries) :
      Fits settings log ⟨id, now, .failed e⟩
  /-- It has failed often enough.  Where no failures are allowed the first one is the last. -/
  | givenUp {id : RolloutId} {now : Nat} {e : SchedulerError} {result : Except SchedulerError Unit}
      (hdue : Due settings log id now) (he : e.isCounted = true)
      (hlast : (streak id log).length + 1 = max 1 settings.maxRetries) :
      Fits settings log ⟨id, now, .givenUp e result⟩

/-- Every visit fits the earlier ones. -/
def Coherent (settings : SchedulerSettings) : List Visit → Prop
  | [] => True
  | v :: log => v.Fits settings log ∧ Coherent settings log

/-- The log is coherent, and what is remembered is what it tells. -/
structure Faithful (settings : SchedulerSettings) (retries : Retries) (log : List Visit) :
    Prop where
  coherent : Coherent settings log
  entry : ∀ id, retries.find? id = remembered settings (streak id log)

/-- No rollout fails too often in a row. -/
lemma Coherent.streak_lt {log : List Visit} (h : Coherent settings log) (id : RolloutId) :
    (streak id log).length < max 1 settings.maxRetries := by
  induction log with
  | nil => exact Nat.lt_of_lt_of_le Nat.one_pos (Nat.le_max_left 1 _)
  | cons v log ih =>
    have hlog := ih h.2
    by_cases hid : v.id = id
    · subst hid
      cases h.1 with
      | waited | refused => simpa only [streak, if_true] using hlog
      | stepped | lapsed | givenUp =>
        simp only [streak, if_true]
        exact Nat.lt_of_lt_of_le Nat.one_pos (Nat.le_max_left 1 _)
      | failed _ _ hfew =>
        simp only [streak, if_true]
        exact Nat.lt_of_lt_of_le hfew (Nat.le_max_right 1 _)
    · rwa [streak_of_ne hid]

namespace Faithful

variable {log log' : List Visit} (h : Faithful settings retries log)
include h

lemma failuresOf_eq (id : RolloutId) : failuresOf retries id = (streak id log).length := by
  rw [failuresOf, h.entry]
  cases streak id log <;> rfl

lemma waits_iff : waits retries id now = true ↔
    ∃ r, remembered settings (streak id log) = some r ∧ now < r.notBefore := by
  rw [waits, h.entry]
  cases remembered settings (streak id log) <;> simp

lemma due (hwaits : waits retries id now = false) : Due settings log id now := by
  intro r hr
  by_contra hnow
  rw [h.waits_iff.2 ⟨r, hr, Nat.not_le.1 hnow⟩] at hwaits
  cases hwaits

/-- **What is remembered counts.** -/
lemma bounded {r : Retry} (hr : retries.find? id = some r) :
    1 ≤ r.failures ∧ r.failures < settings.maxRetries := by
  have hlt := h.coherent.streak_lt id
  rw [h.entry] at hr
  cases hstreak : streak id log with
  | nil =>
    rw [hstreak] at hr
    cases hr
  | cons last earlier =>
    rw [hstreak] at hr hlt
    obtain rfl := Option.some.inj hr
    rw [List.length_cons] at hlt
    exact ⟨Nat.le_add_left 1 _, by dsimp only; omega⟩

/-- Behind a visit that fits, what is remembered is what the log tells with the visit. -/
lemma visit {v : Visit} (hfits : v.Fits settings log) :
    Faithful settings (v.outcome.update settings v.now v.id retries) (v :: log) := by
  refine ⟨⟨hfits, h.coherent⟩, fun k => ?_⟩
  have hcount := h.failuresOf_eq v.id
  by_cases hk : v.id = k
  · subst hk
    cases hfits with
    | waited | refused => simpa only [Outcome.update, streak, if_true] using h.entry _
    | stepped | lapsed | givenUp =>
      simp only [Outcome.update, streak, if_true, remembered]
      exact (OrderedMap.find?_erase _ _ _).trans (if_pos rfl)
    | failed =>
      simp only [Outcome.update, streak, if_true, remembered, hcount]
      exact (OrderedMap.find?_insert _ _ _ _).trans (if_pos rfl)
  -- of the other rollouts nothing else is remembered
  · rw [streak_of_ne hk, ← h.entry k]
    cases hfits with
    | waited | refused => rfl
    | stepped | lapsed | givenUp => exact (OrderedMap.find?_erase _ _ _).trans (if_neg (Ne.symm hk))
    | failed => exact (OrderedMap.find?_insert _ _ _ _).trans (if_neg (Ne.symm hk))

end Faithful

/-- **What comes of a visit fits the log.** -/
lemma attend_fits {log : List Visit} {outcome : Outcome} (h : Faithful s.settings retries log)
    (hreturns : (s.attend now id retries).Returns outcome) :
    Visit.Fits s.settings log ⟨id, now, outcome⟩ := by
  unfold attend at hreturns
  split at hreturns
  · rename_i hwaits
    obtain rfl := hreturns
    obtain ⟨r, hr, hnow⟩ := h.waits_iff.1 hwaits
    exact .waited hr hnow
  rename_i hwaits
  have hdue := h.due (Bool.eq_false_iff.2 hwaits)
  have hcount := h.failuresOf_eq id
  obtain ⟨result, -, hreturns⟩ := Program.returns_bind hreturns
  cases result with
  | ok ending =>
    cases ending with
    | made progressed =>
      obtain rfl := hreturns
      exact .stepped hdue
    | lapsed progressed =>
      obtain rfl := hreturns
      exact .lapsed hdue
  | error e =>
    dsimp only at hreturns
    split at hreturns
    · rename_i he
      split at hreturns
      · rename_i hmany
        obtain ⟨result, -, rfl⟩ := Program.returns_bind hreturns
        have hlt := h.coherent.streak_lt id
        exact .givenUp hdue he (by omega)
      · rename_i hfew
        obtain rfl := hreturns
        exact .failed hdue he (by omega)
    · rename_i he
      obtain rfl := hreturns
      exact .refused hdue (Bool.eq_false_iff.2 he)

/-! ## Cycles with a log -/

/-- Takes rollouts one after the other. -/
def attendAll (s : Scheduler) (now : Nat) :
    List RolloutId → Retries × List Visit → Program (Retries × List Visit)
  | [], kept => return kept
  | id :: rest, (retries, log) => do
    let outcome ← s.attend now id retries
    s.attendAll now rest (outcome.update s.settings now id retries, ⟨id, now, outcome⟩ :: log)

/-- One cycle at a time in seconds. -/
def attendCycle (s : Scheduler) (now : Nat) (kept : Retries × List Visit) :
    Program (Retries × List Visit) := do
  match ← Program.look Store.listRollouts with
  | .ok rollouts => s.attendAll now (candidates now rollouts) kept
  | .error _ => return kept

/-- Cycles at given times, one behind the other. -/
def attendCycles (s : Scheduler) :
    List Nat → Retries × List Visit → Program (Retries × List Visit)
  | [], kept => return kept
  | now :: rest, kept => do
    let kept ← s.attendCycle now kept
    s.attendCycles rest kept

/-- Cycles at given times, one behind the other, without a log. -/
def cyclesAt (s : Scheduler) : List Nat → Retries → Program Retries
  | [], retries => return retries
  | now :: rest, retries => do
    let (retries, _) ← s.cycle now retries
    s.cyclesAt rest retries

variable {log : List Visit}

/-! ### The log changes nothing -/

lemma visitAll_eq (ids : List RolloutId) (retries : Retries) (report : CycleReport)
    (log : List Visit) :
    Prod.fst <$> s.visitAll now ids retries report =
      Prod.fst <$> s.attendAll now ids (retries, log) := by
  induction ids generalizing retries report log with
  | nil => rfl
  | cons id rest ih =>
    rw [visitAll, visit_eq_attend, bind_assoc, map_bind, attendAll, map_bind]
    exact congrArg _ (funext fun outcome => ih _ _ _)

lemma cycle_eq (now : Nat) (retries : Retries) (log : List Visit) :
    Prod.fst <$> s.cycle now retries = Prod.fst <$> s.attendCycle now (retries, log) := by
  rw [cycle, map_bind, attendCycle, map_bind]
  refine congrArg _ (funext fun rows => ?_)
  cases rows with
  | ok rollouts => exact visitAll_eq _ _ _ _
  | error e => rfl

/-- **Cycles with a log do what they do without one**, whatever is in the log. -/
lemma cyclesAt_eq (nows : List Nat) (retries : Retries) (log : List Visit) :
    s.cyclesAt nows retries = Prod.fst <$> s.attendCycles nows (retries, log) := by
  induction nows generalizing retries log with
  | nil => rfl
  | cons now rest ih =>
    have hfirst := cycle_eq (s := s) now retries log
    calc s.cyclesAt (now :: rest) retries
        = Prod.fst <$> s.cycle now retries >>= s.cyclesAt rest := (bind_map_left _ _ _).symm
      _ = Prod.fst <$> s.attendCycle now (retries, log) >>= s.cyclesAt rest := by rw [hfirst]
      _ = Prod.fst <$> s.attendCycles (now :: rest) (retries, log) := by
        rw [bind_map_left, attendCycles, map_bind]
        exact congrArg _ (funext fun kept => ih kept.1 kept.2)

/-! ### The log is kept -/

lemma attendAll_faithful {ids : List RolloutId} {kept : Retries × List Visit}
    (h : Faithful s.settings retries log)
    (hreturns : (s.attendAll now ids (retries, log)).Returns kept) :
    Faithful s.settings kept.1 kept.2 := by
  induction ids generalizing retries log with
  | nil =>
    obtain rfl := hreturns
    exact h
  | cons id rest ih =>
    obtain ⟨outcome, houtcome, hrest⟩ := Program.returns_bind hreturns
    exact ih (h.visit (attend_fits h houtcome)) hrest

lemma attendCycle_faithful {kept : Retries × List Visit} (h : Faithful s.settings retries log)
    (hreturns : (s.attendCycle now (retries, log)).Returns kept) :
    Faithful s.settings kept.1 kept.2 := by
  obtain ⟨rows, -, hreturns⟩ := Program.returns_bind hreturns
  cases rows with
  | ok rollouts => exact attendAll_faithful h hreturns
  | error e =>
    obtain rfl := hreturns
    exact h

/-- **What is remembered is what the log tells**, behind any number of cycles. -/
lemma attendCycles_faithful {nows : List Nat} {kept : Retries × List Visit}
    (h : Faithful s.settings retries log)
    (hreturns : (s.attendCycles nows (retries, log)).Returns kept) :
    Faithful s.settings kept.1 kept.2 := by
  induction nows generalizing retries log with
  | nil =>
    obtain rfl := hreturns
    exact h
  | cons now rest ih =>
    obtain ⟨kept, hkept, hrest⟩ := Program.returns_bind hreturns
    exact ih (attendCycle_faithful h hkept) hrest

/-- A scheduler starts out without failures. -/
lemma Faithful.empty (settings : SchedulerSettings) : Faithful settings .empty [] :=
  ⟨trivial, fun _ => rfl⟩

end Scheduler

end StagedRollout
