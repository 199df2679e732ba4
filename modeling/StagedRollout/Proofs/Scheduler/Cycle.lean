/-
# Cycles are safe

A scheduler drives rollouts forward, resolves live ones again and gives up those that keep
failing.  All of it happens under locks, which change leases only; whether a lock holds makes no
difference to what is written, only to whether it is.
-/
import StagedRollout.Proofs.Scheduler.Live
import StagedRollout.Scheduler.Cycle

namespace StagedRollout

open Store Transaction Progression

variable {allowed : Intent → Prop} {c : Chronicle}

/-- A scheduler whose lock and resolver are calm and whose intents at a time are allowed. -/
structure Scheduler.Steady (allowed : Intent → Prop) (now : Nat) (s : Scheduler) : Prop where
  lock : s.lock.Calm
  resolver : ∀ live, s.live = some live → live.resolver.Calm
  drives : ∀ d, Drives now d → allowed d
  joins : ∀ live, s.live = some live → allowed (.join live.quota)
  givesUp : ∀ r, allowed (.order r .retriesExhausted)

namespace Scheduler

variable {s : Scheduler} {now : Nat}

/-! ## One rollout -/

lemma stepUnder_orderly (hs : s.Steady allowed now) (h : Settled c) (id : RolloutId) (g : Guard) :
    Operation.Orderly allowed (s.stepUnder id now g) (fun _ => Settled) c := by
  refine .bind (.mapError ((advance_orderly hs.drives h id).mono fun adv c h => ?_))
  cases hlive : s.live with
  | none => exact .pure h
  | some live =>
    refine .bind ((hs.lock.renew g).orderly h fun renewed c h _ => ?_)
    dsimp only
    split
    · exact .bind (.mapError ((Live.refresh_orderly (hs.resolver live hlive) (hs.drives _ .issue)
        (hs.joins live hlive) h id).mono fun _ c h => .pure h))
    · exact .pure h

/-- Work under a lock that is safe is safe with the taking and the giving up of the lock. -/
lemma step_orderly (hs : s.Steady allowed now) (h : Settled c) (id : RolloutId) :
    Operation.Orderly allowed (s.step id now) (fun _ => Settled) c := by
  exact .bind ((hs.lock.acquire id).orderly h fun g c h _ =>
    .tidied (stepUnder_orderly hs h id g) (hs.lock.release g))

/-! ## Failures -/

lemma giveUpUnder_orderly (hs : s.Steady allowed now) (h : Settled c) (id : RolloutId)
    (e : SchedulerError) (g : Guard) :
    Operation.Orderly allowed (giveUpUnder id now e g) (fun _ => Settled) c := by
  refine .mapError (.bind (requireRollout_orderly h fun r hr => ?_))
  have hrow : c.store.rollout? r.id = some r := by
    rw [(h.sound.rollout_key hr).1]
    exact hr
  refine .bind (.ofExcept h fun r' happly => ?_)
  have hrow' := Rollout.apply_eq_ok happly
  exact saveRollout_orderly h (.giveUp (hs.givesUp r) hrow hrow') fun c' hc' _ => hc'

lemma giveUp_orderly (hs : s.Steady allowed now) (h : Settled c) (id : RolloutId)
    (e : SchedulerError) :
    Operation.Orderly allowed (s.giveUp id now e) (fun _ => Settled) c := by
  refine .bind ((hs.lock.acquire id).orderly h fun g c h _ => ?_)
  have hrelease : ∀ (result : Except SchedulerError Unit) (c : Chronicle), Settled c →
      Operation.Orderly allowed (do
        s.lock.release g
        Operation.ofExcept result) (fun _ => Settled) c := fun result c h =>
    .bind ((hs.lock.release g).orderly h fun _ c h _ => .ofExcept h fun _ _ => h)
  exact .bind (.lift (.attempt ((giveUpUnder_orderly hs h id e g).mono fun _ c h => hrelease _ c h)
    fun _ c h => hrelease _ c h))

lemma recordFailure_orderly (hs : s.Steady allowed now) (h : Settled c) (id : RolloutId)
    (e : SchedulerError) (retries : Retries) :
    Program.Orderly allowed (s.recordFailure id now e retries) (fun _ => Settled) c := by
  unfold recordFailure
  dsimp only
  split
  · exact .bind (.attempt ((giveUp_orderly hs h id e).mono fun _ c h => .pure h)
      fun _ c h => .pure h)
  · exact .pure h

/-! ## Cycles -/

lemma visit_orderly (hs : s.Steady allowed now) (h : Settled c) (id : RolloutId) (retries : Retries)
    (report : CycleReport) :
    Program.Orderly allowed (s.visit now id retries report) (fun _ => Settled) c := by
  unfold visit
  split
  · exact .pure h
  refine .bind (.attempt ((step_orderly hs h id).mono fun _ c h => .pure h) fun e c h => ?_)
  cases e with
  | lockContention rollout holder => exact .pure h
  | rollout e | store e =>
    dsimp only
    split
    · exact .pure h
    · split
      · exact .bind ((recordFailure_orderly hs h id _ retries).mono fun _ c h => .pure h)
      · exact .pure h

lemma visitAll_orderly (hs : s.Steady allowed now) (h : Settled c) (ids : List RolloutId)
    (retries : Retries) (report : CycleReport) :
    Program.Orderly allowed (s.visitAll now ids retries report) (fun _ => Settled) c := by
  induction ids generalizing retries report c with
  | nil => exact .pure h
  | cons id rest ih =>
    exact .bind ((visit_orderly hs h id retries report).mono fun _ c h => ih h _ _)

/-- **A cycle is safe**, whatever the lock says. -/
theorem cycle_orderly (hs : s.Steady allowed now) (h : Settled c) (retries : Retries) :
    Program.Orderly allowed (s.cycle now retries) (fun _ => Settled) c := by
  refine .bind (.look ?_)
  cases c.store.listRollouts with
  | ok rollouts => exact visitAll_orderly hs h _ retries .zero
  | error e => exact .pure h

end Scheduler

end StagedRollout
