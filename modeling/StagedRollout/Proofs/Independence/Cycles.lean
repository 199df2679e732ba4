/-
# A rollout's turn in a cycle

A step of a scheduler for one rollout is local to it, and so is all that a cycle does when it takes
the rollout (`Scheduler.visit_local`).  What a cycle remembers of failures and counts is no part of
the store.  A rollout's turn (`Scheduler.turn`) reads and writes only what is remembered of that
rollout, and tells what is to be counted, so two turns do not meet there either.
-/
import StagedRollout.Proofs.Independence.Progress
import StagedRollout.Proofs.Scheduler.LostLease

namespace StagedRollout

variable {watched : Region} {env : Surroundings} {a : RolloutId}

/-! ## Locks -/

/-- A guard on the lease of a rollout. -/
def Guard.IsOf (g : Guard) (a : RolloutId) : Prop := g.key = Lease.rolloutKey a

lemma Guard.IsOf.covers {g : Guard} (h : g.IsOf a) :
    (Region.own watched a).Covers (some g.fence) :=
  fun _ hf => Option.some.inj hf ▸ .inl h

namespace RolloutLock

variable (henv : env.Still) (owner : String) (ttl : Nat)
include henv

lemma commit_local {α : Type} {t : Transaction α} {P : α → Prop} (ht : t.Local watched a P) :
    (commit t).Local watched env a P := .mapError (.commit henv nofun ht)

lemma acquireFor_local : (acquireFor owner ttl a).Local watched env a (·.IsOf a) := by
  refine .bind (.now henv) fun now _ => ?_
  refine .bind (commit_local henv (.acquireLease owner ttl)) fun grant _ => ?_
  cases grant with
  | held l => exact .throw _
  | granted l => exact .pure rfl

variable {g : Guard} (hg : g.IsOf a)
include hg

lemma renewFor_local : (renewFor owner ttl g).Local watched env a fun p => p.2.IsOf a := by
  refine .bind (.now henv) fun now _ => ?_
  rw [hg]
  refine .bind (commit_local henv (.renewLease owner _ ttl)) fun found _ => ?_
  cases found with
  | none => exact .pure hg
  | some l => exact .pure rfl

lemma releaseFor_local : (releaseFor owner g).Local watched env a fun _ => True := by
  unfold releaseFor
  rw [hg]
  exact .bind (commit_local henv (.releaseLease owner _)) fun _ _ => .pure trivial

end RolloutLock

/-! ## Steps -/

namespace Scheduler

/-- A scheduler keeps its leases in the store, and its resolver does not look at other rollouts. -/
structure Confined (watched : Region) (env : Surroundings) (a : RolloutId) (sch : Scheduler) :
    Prop where
  lock : ∃ owner ttl, sch.lock = .ofStore owner ttl
  resolver : ∀ live, sch.live = some live → ∀ filter,
    (live.resolver filter).Local watched env a fun _ => True

variable {sch : Scheduler} (now : Nat) {retries : Retries} {report : CycleReport}
  (henv : env.Tame watched) (h : sch.Confined watched env a)
include henv h

lemma acquire_local : (sch.lock.acquire a).Local watched env a (·.IsOf a) := by
  obtain ⟨owner, ttl, hlock⟩ := h.lock
  rw [hlock]
  exact RolloutLock.acquireFor_local henv.still owner ttl

lemma renew_local {g : Guard} (hg : g.IsOf a) :
    (sch.lock.renew g).Local watched env a fun p => p.2.IsOf a := by
  obtain ⟨owner, ttl, hlock⟩ := h.lock
  rw [hlock]
  exact RolloutLock.renewFor_local henv.still owner ttl hg

lemma release_local {g : Guard} (hg : g.IsOf a) :
    (sch.lock.release g).Local watched env a fun _ => True := by
  obtain ⟨owner, ttl, hlock⟩ := h.lock
  rw [hlock]
  exact RolloutLock.releaseFor_local henv.still owner hg

lemma stepUnder_local {g : Guard} (hg : g.IsOf a) :
    (sch.stepUnder a now g).Local watched env a fun _ => True := by
  refine .bind (.mapError (Progression.advance_local henv hg.covers)) fun adv _ => ?_
  cases hlive : sch.live with
  | none => exact .pure trivial
  | some live =>
    refine .bind (renew_local henv h hg) fun p hp => ?_
    dsimp only
    split
    · exact .bind (.mapError (Live.refresh_local henv hp.covers (h.resolver live hlive)))
        fun _ _ => .pure trivial
    · exact .pure trivial

/-- **A step of a scheduler for a rollout is local to it.** -/
theorem step_local : (sch.step a now).Local watched env a fun _ => True :=
  .bind (acquire_local henv h) fun _ hg => .bind (.attempt (stepUnder_local now henv h hg))
    fun _ _ => .bind (.attempt (release_local henv h hg)) fun _ _ => .ofExcept fun _ _ => trivial

lemma giveUp_local (e : SchedulerError) : (sch.giveUp a now e).Local watched env a fun _ => True := by
  refine .bind (acquire_local henv h) fun g hg => .bind (.attempt (P := fun _ => True)
    (.mapError (.bind .requireRollout fun r hr => ?_))) fun result _ => ?_
  · refine .bind (.ofExcept fun r' happly => hr.apply happly) fun r' hr' => ?_
    exact Progression.saveRollout_local henv hg.covers hr'
  · exact .bind (release_local henv h hg) fun _ _ => .ofExcept fun _ _ => trivial

lemma recordFailure_local (e : SchedulerError) :
    (sch.recordFailure a now e retries).Local watched env a fun _ => True := by
  unfold recordFailure
  dsimp only
  split
  · exact .bind (giveUp_local now henv h e) fun _ _ => .pure trivial
  · exact .pure trivial

lemma conclude_local (result : Except SchedulerError Bool) :
    (sch.conclude now a retries report result).Local watched env a fun _ => True := by
  cases result with
  | ok progressed => exact .pure trivial
  | error e =>
    cases e with
    | lockContention rollout holder => exact .pure trivial
    | rollout e | store e =>
      dsimp only [conclude]
      split
      · exact .pure trivial
      · split
        · exact .bind (recordFailure_local now henv h _) fun _ _ => .pure trivial
        · exact .pure trivial

/-- **What a cycle does when it takes a rollout is local to it.** -/
theorem visit_local : (sch.visit now a retries report).Local watched env a fun _ => True := by
  cases hwaits : waits retries a now with
  | true =>
    rw [visit, if_pos hwaits]
    exact .pure trivial
  | false =>
    rw [visit_eq hwaits]
    exact .bind (step_local now henv h) fun result _ => conclude_local now henv h result

end Scheduler

/-! ## Turns -/

/-- Retries in which the failures of a rollout are set anew. -/
def Retries.remember (retries : Retries) (id : RolloutId) : Option Retry → Retries
  | none => retries.erase id
  | some r => retries.insert id r

namespace Retries

lemma find?_remember (retries : Retries) (id k : RolloutId) (retry : Option Retry) :
    (retries.remember id retry).find? k = if k = id then retry else retries.find? k := by
  cases retry with
  | none => exact OrderedMap.find?_erase retries id k
  | some r => exact OrderedMap.find?_insert retries id k r

lemma remember_self (retries : Retries) (id : RolloutId) :
    retries.remember id (retries.find? id) = retries := by
  refine OrderedMap.ext_find? fun k => ?_
  rw [find?_remember]
  split
  · rename_i heq
    rw [heq]
  · rfl

lemma remember_erase (retries retries' : Retries) (id : RolloutId) :
    retries.remember id ((retries'.erase id).find? id) = retries.erase id := by
  rw [OrderedMap.find?_erase, if_pos rfl, remember]

lemma remember_insert (retries retries' : Retries) (id : RolloutId) (r : Retry) :
    retries.remember id ((retries'.insert id r).find? id) = retries.insert id r := by
  rw [OrderedMap.find?_insert, if_pos rfl, remember]

lemma remember_comm (retries : Retries) {x y : RolloutId} (hxy : x ≠ y) (p q : Option Retry) :
    (retries.remember x p).remember y q = (retries.remember y q).remember x p := by
  refine OrderedMap.ext_find? fun k => ?_
  simp only [find?_remember]
  grind

end Retries

/-- What two parts of a cycle did. -/
def CycleReport.add (r d : CycleReport) : CycleReport :=
  ⟨r.advanced + d.advanced, r.contended + d.contended, r.failed + d.failed, r.skipped + d.skipped⟩

lemma CycleReport.add_right_comm (r d d' : CycleReport) :
    (r.add d).add d' = (r.add d').add d := by
  simp only [add, CycleReport.mk.injEq]
  omega

namespace Scheduler

variable {sch : Scheduler} {now : Nat} {id : RolloutId}

/-- What a cycle does when it takes a rollout, given what is remembered of the rollout: what is
remembered of it from then on, and what is counted. -/
def turn (sch : Scheduler) (now : Nat) (id : RolloutId) (retry : Option Retry) :
    Program (Option Retry × CycleReport) := do
  let (retries, report) ← sch.visit now id (Retries.remember .empty id retry) .zero
  return (retries.find? id, report)

section

variable {retries retries' : Retries} (h : retries'.find? id = retries.find? id)
  (report : CycleReport) {report' : CycleReport}
include h

lemma recordFailure_eq (e : SchedulerError) :
    sch.recordFailure id now e retries = do
      let m ← sch.recordFailure id now e retries'
      return retries.remember id (m.find? id) := by
  have hfailures : failuresOf retries' id = failuresOf retries id := by
    rw [failuresOf, failuresOf, h]
  unfold recordFailure
  rw [hfailures]
  dsimp only
  split
  · rw [bind_assoc]
    refine congrArg _ (funext fun _ => ?_)
    exact congrArg Program.done (Retries.remember_erase retries retries' id).symm
  · exact congrArg Program.done (Retries.remember_insert retries retries' id _).symm

/-- Nothing is remembered anew. -/
lemma done_eq {report counted : CycleReport} (hreport : report' = report.add counted) :
    (Program.done (retries, report') : Program (Retries × CycleReport)) =
      .done (retries.remember id (retries'.find? id), report.add counted) := by
  rw [h, Retries.remember_self, hreport]

/-- What a cycle makes of a step depends on what is remembered of the rollout only. -/
lemma conclude_eq (result : Except SchedulerError Bool) :
    sch.conclude now id retries report result = do
      let (m, counted) ← sch.conclude now id retries' .zero result
      return (retries.remember id (m.find? id), report.add counted) := by
  cases result with
  | ok progressed =>
    refine congrArg Program.done ?_
    rw [Retries.remember_erase]
    cases progressed <;> rfl
  | error e =>
    cases e with
    | lockContention rollout holder => exact done_eq h rfl
    | rollout e | store e =>
      dsimp only [conclude]
      split
      · exact done_eq h rfl
      · split
        · rw [recordFailure_eq h, bind_assoc, bind_assoc]
          rfl
        · exact done_eq h rfl

lemma visit_eq_of_find? :
    sch.visit now id retries report = do
      let (m, counted) ← sch.visit now id retries' .zero
      return (retries.remember id (m.find? id), report.add counted) := by
  have hwaits : waits retries' id now = waits retries id now := by rw [waits, waits, h]
  cases hw : waits retries id now with
  | true =>
    rw [visit, visit, if_pos hw, if_pos (hwaits.trans hw)]
    exact done_eq h rfl
  | false =>
    rw [visit_eq hw, visit_eq (hwaits.trans hw), bind_assoc]
    exact congrArg _ (funext fun result => conclude_eq h report result)

end

/-- **A cycle takes a rollout by the rollout's turn.** -/
lemma visit_eq_turn (retries : Retries) (report : CycleReport) :
    sch.visit now id retries report = do
      let (retry, counted) ← sch.turn now id (retries.find? id)
      return (retries.remember id retry, report.add counted) := by
  have hfind : (Retries.remember .empty id (retries.find? id)).find? id = retries.find? id := by
    rw [Retries.find?_remember, if_pos rfl]
  rw [visit_eq_of_find? hfind, turn, bind_assoc]
  rfl

lemma turn_local (now : Nat) {watched : Region} {env : Surroundings} (henv : env.Tame watched)
    (h : sch.Confined watched env id) (retry : Option Retry) :
    (sch.turn now id retry).Local watched env id fun _ => True :=
  .bind (visit_local now henv h) fun _ _ => .pure trivial

end Scheduler

end StagedRollout
