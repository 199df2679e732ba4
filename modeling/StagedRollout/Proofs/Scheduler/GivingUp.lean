/-
# Retry budgets

A scheduler gives a rollout up behind a number of failures in a row, counted since its last step
that did not fail and since it was last given up.  What a scheduler remembers of failures is told by
the log of its visits, whatever happens around it; what becomes of a rollout that is given up is
told by a run.  A give-up that gets the lease, does not outlive it, and finds the rollout under way
ends with the rollout in its error state and the lease given up (`Scheduler.giveUp_ends`).

A lost lease is no failure.  Where a write runs into it the step fails without being counted, and
what is remembered stays.  Where the step finds it lost when it is to be extended the step does not
fail, and the rollout's failures are forgotten (`Scheduler.not_failures_kept`).
-/
import StagedRollout.Proofs.Operator.Atomic
import StagedRollout.Proofs.Scheduler.LostLease
import StagedRollout.Proofs.Scheduler.Refreshed
import StagedRollout.Proofs.Scheduler.Retries

namespace StagedRollout

open Store Transaction Progression

/-! ## Operations that go through -/

namespace Operation.Ends

variable {α β ε ε' : Type} {env : Surroundings} {w w₁ w' : World} {a : α}

lemma bind {op : Operation ε α} {f : α → Operation ε β} {b : β} (h : Ends env op w a w₁)
    (hf : Ends env (f a) w₁ b w') : Ends env (op >>= f) w b w' := by
  unfold Ends at h hf ⊢
  rw [ExceptT.run_bind, Program.run_bind, h]
  exact hf

lemma mapError {op : Operation ε α} (h : Ends env op w a w') (f : ε → ε') :
    Ends env (Operation.mapError f op) w a w' := by
  change (ExceptT.run op >>= fun r => .done (r.mapError f)).run env w = _
  rw [Program.run_bind, h]
  rfl

lemma ofExcept {r : Except ε α} (h : r = .ok a) : Ends env (Operation.ofExcept r) w a w :=
  congrArg (·, w) h

lemma attempt {op : Operation ε α} (h : Ends env op w a w') :
    Ends env (ExceptT.lift (ExceptT.run op) : Operation ε' _) w (.ok a) w' := by
  change (ExceptT.run op >>= fun b => .done (Except.ok b)).run env w = _
  rw [Program.run_bind, h]
  rfl

lemma read {view : Store → Except StoreError α} (h : view w.store = .ok a) :
    Ends env (Operation.read view) w a w := Prod.ext h rfl

lemma commit {t : Transaction α} {s' : Store} (h : t w.store = .ok (a, s')) :
    Ends env (Operation.commit none t) w a { w with store := s' } := by
  change ((w.store.commit none 0 t).1, { w with store := (w.store.commit none 0 t).2 }) = _
  rw [Store.commit, checkFence, h]

lemma commit_fenced {f : Fence} {t : Transaction α} {s' : Store}
    (hcheck : f.check (env.clock w.readings) w.store = .ok ()) (h : t w.store = .ok (a, s')) :
    Ends env (Operation.commit (some f) t) w a
      { w with store := s', readings := w.readings + 1 } := by
  change ((w.store.commit (some f) (env.clock w.readings) t).1,
    { w with
      store := (w.store.commit (some f) (env.clock w.readings) t).2
      readings := w.readings + 1 }) = _
  rw [Store.commit, checkFence, hcheck, h]

end Operation.Ends

variable {env : Surroundings} {w w₁ w₂ : World} {owner : String} {ttl : Nat} {id : RolloutId}
  {g : Guard}

/-- Whoever gets a rollout has a guard on the lease that is in the store. -/
lemma acquireFor_ends (h : Operation.Ends env (RolloutLock.acquireFor owner ttl id) w g w₁) :
    g.fence = ⟨Lease.rolloutKey id, owner, g.fencing⟩ ∧
      w₁.store.lease? (Lease.rolloutKey id) =
        some ⟨Lease.rolloutKey id, owner, g.fencing, g.expiresAt⟩ := by
  obtain ⟨now, w', -, h⟩ := h.of_bind
  obtain ⟨grant, w'', hcommit, h⟩ := h.of_bind
  have hacquired := acquireLease_eq_ok hcommit.of_mapError.of_commit
  cases grant with
  | held l => cases h
  | granted l =>
    obtain ⟨rfl, rfl⟩ := h.of_pure
    refine ⟨rfl, ?_⟩
    generalize w₁.store = s' at hacquired
    cases hacquired <;> exact lease?_withLease_self _ _ _

/-- Whoever has the lease gives it up. -/
lemma releaseFor_ends (env : Surroundings) (w : World) {expiresAt : Nat}
    (hl : w.store.lease? g.key = some ⟨g.key, owner, g.fencing, expiresAt⟩) :
    Operation.Ends env (RolloutLock.releaseFor owner g) w ()
      { w with store := w.store.withLease g.key ⟨g.key, owner, g.fencing, 0⟩ } :=
  .bind (.mapError (.commit (releaseLease_run hl)) _) rfl

namespace Scheduler

variable {s : Scheduler} {now : Nat} {retries : Retries} {report : CycleReport}
  {e : SchedulerError} {r : Rollout}

/-- A rollout that is given up for an error. -/
def givenUpFor (e : SchedulerError) (now : Nat) (r : Rollout) : Rollout :=
  { r with state := .error, updatedAt := now, lastError := some (giveUpText e) }

/-- A give-up that gets the lease, does not outlive it, and finds the rollout under way. -/
structure Prevails (s : Scheduler) (env : Surroundings) (id : RolloutId) (w : World) (g : Guard)
    (w₁ : World) (r : Rollout) : Prop where
  gets : Operation.Ends env (s.lock.acquire id) w g w₁
  /-- The lease has not run out by the time the rollout is written. -/
  lasts : env.clock w₁.readings < g.expiresAt
  finds : Table.read w₁.store.rollouts id = .ok (some r)
  underway : r.state = .starting ∨ r.state = .running

/-- What such a give-up leaves: the rollout in its error state, and the lease given up. -/
def relinquished (owner : String) (e : SchedulerError) (now : Nat) (id : RolloutId) (g : Guard)
    (r : Rollout) (s : Store) : Store :=
  (s.withRollout (givenUpFor e now r)).withLease (Lease.rolloutKey id)
    ⟨Lease.rolloutKey id, owner, g.fencing, 0⟩

lemma rollout?_relinquished (store : Store) :
    (relinquished owner e now id g r store).rollout? r.id = some (givenUpFor e now r) :=
  (rollout?_withRollout store (givenUpFor e now r) r.id).trans (if_pos rfl)

lemma lease?_relinquished (store : Store) :
    (relinquished owner e now id g r store).lease? (Lease.rolloutKey id) =
      some ⟨Lease.rolloutKey id, owner, g.fencing, 0⟩ := lease?_withLease_self _ _ _

/-- The rollout may be written behind the fence. -/
lemma Prevails.check (h : s.Prevails env id w g w₁ r) (hlock : s.lock = .ofStore owner ttl) :
    g.fence.check (env.clock w₁.readings) w₁.store = .ok () := by
  have hgets := h.gets
  rw [hlock] at hgets
  obtain ⟨hfence, hlease⟩ := acquireFor_ends hgets
  have haccepts : Fence.accepts ⟨Lease.rolloutKey id, owner, g.fencing⟩
      ⟨Lease.rolloutKey id, owner, g.fencing, g.expiresAt⟩ (env.clock w₁.readings) = true :=
    Fence.accepts_iff.2 ⟨⟨rfl, rfl⟩, by simp [Lease.isExpired, h.lasts]⟩
  rw [hfence, Fence.check, read_leases hlease]
  simp only [haccepts, if_true]

/-- The rollout is read and written behind the fence. -/
lemma giveUpUnder_ends (now : Nat) (e : SchedulerError)
    (hfinds : Table.read w.store.rollouts id = .ok (some r))
    (hunderway : r.state = .starting ∨ r.state = .running)
    (hcheck : g.fence.check (env.clock w.readings) w.store = .ok ()) :
    Operation.Ends env (giveUpUnder id now e g) w ()
      { w with
        store := w.store.withRollout (givenUpFor e now r)
        readings := w.readings + 1 } := by
  have hread : Operation.Ends env (Operation.read fun s => Table.read s.rollouts id) w (some r) w :=
    .read hfinds
  have hrequire : Operation.Ends env (requireRollout id) w r w := .bind (hread.mapError _) rfl
  have happly : r.apply .retriesExhausted now =
      .ok { r with state := .error, updatedAt := now } := by
    rcases hunderway with hstate | hstate <;>
      simp [Rollout.apply, Rollout.apply?, hstate, RolloutState.next]
  refine .mapError (.bind hrequire (.bind (.ofExcept happly) ?_)) _
  exact .mapError (.commit_fenced hcheck (putRollout_run _ _)) _

/-- **A give-up that prevails leaves the rollout in its error state.** -/
lemma giveUp_ends (hlock : s.lock = .ofStore owner ttl) (h : s.Prevails env id w g w₁ r) (now : Nat)
    (e : SchedulerError) :
    Operation.Ends env (s.giveUp id now e) w ()
      { w₁ with
        store := relinquished owner e now id g r w₁.store
        readings := w₁.readings + 1 } := by
  have hunder := giveUpUnder_ends now e h.finds h.underway (h.check hlock)
  have hgets := h.gets
  rw [hlock] at hgets
  obtain ⟨hfence, hlease⟩ := acquireFor_ends hgets
  have hkey : g.key = Lease.rolloutKey id := congrArg Fence.key hfence
  -- the lease is as it was taken
  have hheld : (w₁.store.withRollout (givenUpFor e now r)).lease? g.key =
      some ⟨g.key, owner, g.fencing, g.expiresAt⟩ := by
    rw [hkey]
    exact hlease
  have hrelease : Operation.Ends env (RolloutLock.releaseFor owner g)
      { w₁ with
        store := w₁.store.withRollout (givenUpFor e now r)
        readings := w₁.readings + 1 } ()
      { w₁ with
        store := relinquished owner e now id g r w₁.store
        readings := w₁.readings + 1 } := by
    rw [relinquished, ← hkey]
    exact releaseFor_ends env _ hheld
  rw [giveUp, hlock]
  exact .bind hgets (.bind hunder.attempt (.bind hrelease rfl))

/-- A visit whose step fails once too often. -/
structure Exhausts (s : Scheduler) (env : Surroundings) (now : Nat) (id : RolloutId)
    (retries : Retries) (w : World) (e : SchedulerError) (w₁ : World) : Prop where
  due : waits retries id now = false
  fails : (ExceptT.run (s.step id now)).run env w = (.error e, w₁)
  counted : e.isCounted = true
  last : s.settings.maxRetries ≤ failuresOf retries id + 1

lemma stepEnding_fails (h : (ExceptT.run (s.step id now)).run env w = (.error e, w₁)) :
    (ExceptT.run (s.stepEnding id now)).run env w = (.error e, w₁) := by
  rw [run_step, map_eq_pure_bind, Program.run_bind] at h
  obtain ⟨hresult, hworld⟩ := Prod.mk.inj h
  refine Prod.ext ?_ hworld
  cases hending : ((ExceptT.run (s.stepEnding id now)).run env w).1 with
  | ok ending =>
    rw [hending] at hresult
    cases hresult
  | error e' =>
    rw [hending] at hresult
    exact congrArg Except.error (Except.error.inj hresult)

/-- **Behind its last failure a rollout is given up.** -/
lemma attend_of_exhausts (h : s.Exhausts env now id retries w e w₁) :
    (s.attend now id retries).run env w =
      (.givenUp e ((ExceptT.run (s.giveUp id now e)).run env w₁).1,
        ((ExceptT.run (s.giveUp id now e)).run env w₁).2) := by
  rw [attend, if_neg (by simp [h.due]), Program.run_bind, stepEnding_fails h.fails]
  simp only [h.counted, h.last, if_true]
  rw [Program.run_bind]
  rfl

/-- A visit whose step finds its lease lost when it is to be extended. -/
structure Lapses (s : Scheduler) (env : Surroundings) (now : Nat) (id : RolloutId)
    (retries : Retries) (w : World) (progressed : Bool) (w₁ : World) : Prop where
  due : waits retries id now = false
  lapses : (ExceptT.run (s.stepEnding id now)).run env w = (.ok (.lapsed progressed), w₁)

lemma attend_of_lapses {progressed : Bool} (h : s.Lapses env now id retries w progressed w₁) :
    (s.attend now id retries).run env w = (.lapsed progressed, w₁) := by
  rw [attend, if_neg (by simp [h.due]), Program.run_bind, h.lapses]
  rfl

/-- **The retry budget.**  Cycles at any times do what they do with a log.  However their effects
are answered, every visit fits the log of the earlier ones, what is remembered of a rollout is what
its last failures in the log come to, and nothing is remembered but numbers of failures within the
budget.

The visit in which the budget is exhausted forgets the rollout's failures, and if the give-up
prevails it leaves the rollout in its error state, with the error as the reason, and the lease given
up.  A visit whose step finds its lease lost when it is to be extended forgets them as well. -/
theorem retry_budget (s : Scheduler) (nows : List Nat) :
    s.cyclesAt nows .empty = Prod.fst <$> s.attendCycles nows (.empty, []) ∧
    (∀ retries log, (s.attendCycles nows (.empty, [])).Returns (retries, log) →
      Faithful s.settings retries log ∧
      ∀ id r, retries.find? id = some r → 1 ≤ r.failures ∧ r.failures < s.settings.maxRetries) ∧
    (∀ env now id retries report w progressed w₁, s.Lapses env now id retries w progressed w₁ →
      (s.attend now id retries).run env w = (.lapsed progressed, w₁) ∧
        (s.visit now id retries report).run env w =
          ((retries.erase id, (Outcome.stepped progressed).count report), w₁)) ∧
    ∀ owner ttl, s.lock = .ofStore owner ttl →
      ∀ env now id retries report w e w₁ g w₂ r, s.Exhausts env now id retries w e w₁ →
        s.Prevails env id w₁ g w₂ r →
          let w' := { w₂ with
            store := relinquished owner e now id g r w₂.store
            readings := w₂.readings + 1 }
          (s.attend now id retries).run env w = (.givenUp e (.ok ()), w') ∧
            (s.visit now id retries report).run env w =
              ((retries.erase id, { report with failed := report.failed + 1 }), w') := by
  refine ⟨cyclesAt_eq nows .empty [], fun retries log hreturns => ?_, ?_, ?_⟩
  · have hfaithful := attendCycles_faithful (.empty s.settings) hreturns
    exact ⟨hfaithful, fun id r hr => hfaithful.bounded hr⟩
  · intro env now id retries report w progressed w₁ hlapses
    have hattend := attend_of_lapses hlapses
    refine ⟨hattend, ?_⟩
    rw [visit_eq_attend, Program.run_bind, hattend]
    rfl
  · intro owner ttl hlock env now id retries report w e w₁ g w₂ r hexhausts hprevails w'
    have hattend := attend_of_exhausts hexhausts
    rw [show (ExceptT.run (s.giveUp id now e)).run env w₁ = (.ok (), w') from
      giveUp_ends hlock hprevails now e] at hattend
    refine ⟨hattend, ?_⟩
    rw [visit_eq_attend, Program.run_bind, hattend]
    rfl

/-- What a resolver answers whose registry cannot be reached. -/
def offline : RolloutError := .persistence (.readFailed "registry offline")

/-- A scheduler whose resolver never answers, and that gives up behind three failures. -/
def forlorn : Scheduler :=
  ⟨.ofStore "scheduler" 30000, some ⟨fun _ => throw offline, .standard, 0⟩,
    { SchedulerSettings.standard with interval := 1, maxRetries := 3 }⟩

/-- A live rollout behind four cycles: what is remembered, the log, and the world. -/
def failedTwice : (Retries × List Visit) × World :=
  (forlorn.attendCycles [100, 100, 101, 102] (.empty, [])).run Run.quiet
    (World.ofStore (Run.store (Run.threeStages.take 4)))

/-- The world behind the next step. -/
def failedAgain : World := ((ExceptT.run (forlorn.step "r" 103)).run Run.quiet failedTwice.2).2

/-- The world in which the scheduler has the rollout's lease once more. -/
def takenAgain : World := ((ExceptT.run (forlorn.lock.acquire "r")).run Run.quiet failedAgain).2

lemma exhausts_forlorn :
    forlorn.Exhausts Run.quiet 103 "r" failedTwice.1.1 failedTwice.2 (.rollout offline)
      failedAgain :=
  ⟨by cbv, Prod.ext (by cbv) rfl, by decide, by cbv⟩

lemma prevails_forlorn :
    forlorn.Prevails Run.quiet "r" failedAgain
      ⟨"r", Lease.rolloutKey "r", "scheduler", 4, 39000⟩ takenAgain
      { Run.midway with totalTargets := 3, updatedAt := 100, lastResolvedAt := 0 } :=
  ⟨Prod.ext (by cbv) rfl, by cbv, by cbv, .inr rfl⟩

/-- The rollout fails twice and waits behind each failure.  The third time it is given up. -/
theorem retry_budget_forlorn :
    Faithful forlorn.settings failedTwice.1.1 failedTwice.1.2 ∧
      failedTwice.1.2 = [⟨"r", 102, .waited⟩, ⟨"r", 101, .failed (.rollout offline)⟩,
        ⟨"r", 100, .waited⟩, ⟨"r", 100, .failed (.rollout offline)⟩] ∧
      failedTwice.1.1.find? "r" = some ⟨2, 103⟩ ∧
      ∃ w, (forlorn.visit 103 "r" failedTwice.1.1 .zero).run Run.quiet failedTwice.2 =
          ((failedTwice.1.1.erase "r", ⟨0, 0, 1, 0⟩), w) ∧
        w.store.rollout? "r" = some (givenUpFor (.rollout offline) 103
          { Run.midway with totalTargets := 3, lastResolvedAt := 0 }) ∧
        w.store.lease? (Lease.rolloutKey "r") =
          some ⟨Lease.rolloutKey "r", "scheduler", 4, 0⟩ := by
  have hbudget := retry_budget forlorn [100, 100, 101, 102]
  have hfaithful := (hbudget.2.1 failedTwice.1.1 failedTwice.1.2 (Program.returns_run _ _ _)).1
  have hlast := (hbudget.2.2.2 "scheduler" 30000 rfl Run.quiet 103 "r" failedTwice.1.1 .zero
    failedTwice.2 (.rollout offline) failedAgain _ takenAgain _ exhausts_forlorn
    prevails_forlorn).2
  exact ⟨hfaithful, by cbv, by cbv, _, hlast, rollout?_relinquished takenAgain.store,
    lease?_relinquished takenAgain.store⟩

/-- The live rollout behind its first cycle, which fails. -/
def failedOnce : (Retries × List Visit) × World :=
  (forlorn.attendCycles [100] (.empty, [])).run Run.quiet
    (World.ofStore (Run.store (Run.threeStages.take 4)))

/-- The device of the first stage is done. -/
def firstDone : World :=
  { failedOnce.2 with
    store := (failedOnce.2.store.commit none 0
      (Transaction.report "r:0000:a" .finishedSuccess 100)).2 }

/-- The world in which the thief has the rollout's lease and the step has ended. -/
def robbed : World := ((ExceptT.run (forlorn.stepEnding "r" 101)).run stealing firstDone).2

lemma lapses_forlorn : forlorn.Lapses stealing 101 "r" failedOnce.1.1 firstDone true robbed :=
  ⟨by cbv, Prod.ext (by cbv) rfl⟩

/-- A rollout's failures are not kept by every step that finds its lease lost.  The rollout has
failed once when its second stage starts and a thief takes the lease.  The step finds that out when
it is to extend the lease, and the failure is forgotten. -/
theorem not_failures_kept :
    ¬ ∀ (s : Scheduler) owner ttl env now id retries report w progressed w₁ l,
      s.lock = .ofStore owner ttl → s.Lapses env now id retries w progressed w₁ →
        w₁.store.lease? (Lease.rolloutKey id) = some l → l.owner ≠ owner →
          ((s.visit now id retries report).run env w).1.1.find? id = retries.find? id := by
  intro hkept
  have hbefore : failedOnce.1.1.find? "r" = some ⟨1, 101⟩ := by cbv
  have hlease : robbed.store.lease? (Lease.rolloutKey "r") =
      some ⟨Lease.rolloutKey "r", "thief", 3, 1030000⟩ := by cbv
  have hafter : ((forlorn.visit 101 "r" failedOnce.1.1 .zero).run stealing firstDone).1.1.find?
      "r" = none := by cbv
  have hsame := hkept forlorn "scheduler" 30000 stealing 101 "r" failedOnce.1.1 .zero firstDone _ _
    _ rfl lapses_forlorn hlease (by decide)
  rw [hbefore, hafter] at hsame
  cases hsame

end Scheduler

end StagedRollout
