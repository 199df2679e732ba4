/-
# Many holders of one lease

Operators and schedulers with different names work on one rollout at the same time.  Their
effects come in any order, every effect at any reading of the clock; work may be left behind at any
point, and devices report whenever they like.

Whatever the order is, no update is lost: a write of the rollout's row replaces the row that its
writer knows, and no write takes back what a device has reported.
-/
import Mathlib.Logic.Function.Basic
import Mathlib.Logic.Relation
import StagedRollout.Proofs.Invariants
import StagedRollout.Proofs.Sharing.Holders

namespace StagedRollout

open Store Transaction

/-! ## Work -/

/-- Work on a rollout for which its lease is taken.  Times of schedulers are in seconds. -/
inductive Job where
  | command (m : Operator) (c : Command)
  | resume (m : Operator)
  | stop (m : Operator)
  | triggerNext (m : Operator)
  | step (sch : Scheduler) (now : Nat)
  | giveUp (sch : Scheduler) (now : Nat) (e : SchedulerError)

namespace Job

/-- The program of the work. -/
def program (id : RolloutId) : Job → Program Unit
  | command m c => Activity.ofOperation (m.command id c)
  | resume m => Activity.ofOperation (m.resume id)
  | stop m => Activity.ofOperation (m.stop id)
  | triggerNext m => Activity.ofOperation (m.triggerNext id)
  | step sch now => Activity.ofOperation (sch.step id now)
  | giveUp sch now e => Activity.ofOperation (sch.giveUp id now e)

/-- The work takes leases in the name of the owner.  Schedulers keep their leases in the store, and
their resolvers only look. -/
def IsBy (owner : String) : Job → Prop
  | command m _ | resume m | stop m | triggerNext m => m.owner = owner
  | step sch _ | giveUp sch _ _ => (∃ ttl, sch.lock = .ofStore owner ttl) ∧
    ∀ live, sch.live = some live → live.resolver.Reads

/-- **All work is careful.** -/
theorem careful {id : RolloutId} {owner : String} {stops : Prop} {job : Job} {known : Known}
    {s : Store} (hjob : job.IsBy owner) (hstops : (∃ m, job = .stop m) → stops) :
    (job.program id).Careful id owner stops (fun _ _ _ => True) known s := by
  have hwork : ∀ {ε α : Type} {op : Operation ε α}, Operation.Beside id owner stops op known s →
      (Activity.ofOperation op).Careful id owner stops (fun _ _ _ => True) known s :=
    fun h => .bind (Program.Careful.mono h fun _ _ _ _ => trivial)
  cases job with
  | command m c => exact hwork (Operator.command_beside hjob)
  | resume m => exact hwork (Operator.resume_beside hjob)
  | stop m => exact hwork (Operator.stop_beside (hstops ⟨m, rfl⟩) hjob)
  | triggerNext m => exact hwork (Operator.triggerNext_beside hjob)
  | step sch now =>
    obtain ⟨⟨ttl, hlock⟩, hlive⟩ := hjob
    exact hwork (Scheduler.step_beside hlock hlive)
  | giveUp sch now e =>
    obtain ⟨⟨ttl, hlock⟩, -⟩ := hjob
    exact hwork (Scheduler.giveUp_beside hlock)

end Job

/-! ## Systems -/

/-- Somebody who works on the rollout. -/
structure Worker where
  /-- The work at hand, or the last one. -/
  job : Option Job
  /-- What is left of it. -/
  rest : Program Unit
  /-- The row of the rollout that the worker last read or wrote. -/
  known : Known

/-- The worker stops the rollout. -/
def Worker.Stops (w : Worker) : Prop := ∃ m, w.job = some (.stop m)

/-- A store and those who work on a rollout, by the names under which they take its lease. -/
structure System where
  store : Store
  workers : String → Worker

namespace System

/-- The system with another store and another state of one worker. -/
def set (c : System) (owner : String) (s : Store) (w : Worker) : System :=
  ⟨s, Function.update c.workers owner w⟩

/-- What may happen next.  A worker begins with a job or leaves it, or its next effect takes place
and is answered; or a device reports. -/
inductive Turn (id : RolloutId) (c : System) : System → Prop
  | begin {owner : String} {job : Job} (hidle : (c.workers owner).rest = .done ())
      (hjob : job.IsBy owner) :
      Turn id c (c.set owner c.store
        { c.workers owner with job := some job, rest := job.program id })
  | leave (owner : String) :
      Turn id c (c.set owner c.store { c.workers owner with rest := .done () })
  | clock {owner : String} {next : Nat → Program Unit}
      (hnext : (c.workers owner).rest = .step .clock next) (now : Nat) :
      Turn id c (c.set owner c.store { c.workers owner with rest := next now })
  | look {owner : String} {α : Type} {view : Store → α} {next : α → Program Unit} {known : Known}
      (hnext : (c.workers owner).rest = .step (.look view) next)
      (hknown : Noticed (Table.read c.store.rollouts id) (ShowsRow id view)
        (c.workers owner).known known) :
      Turn id c (c.set owner c.store
        { c.workers owner with rest := next (view c.store), known := known })
  | write {owner : String} {α : Type} {fence : Option Fence} {t : Transaction α}
      {next : Except StoreError α → Program Unit} {now : Nat} {a : α} {s : Store} {known : Known}
      (hnext : (c.workers owner).rest = .step (.write fence t) next)
      (hcommit : c.store.commit fence now t = (.ok a, s))
      (hknown : Noticed (Table.read s.rollouts id) (t.WritesRow id) (c.workers owner).known known) :
      Turn id c (c.set owner s { c.workers owner with rest := next (.ok a), known := known })
  | refused {owner : String} {α : Type} {fence : Option Fence} {t : Transaction α}
      {next : Except StoreError α → Program Unit} {now : Nat} {e : StoreError}
      (hnext : (c.workers owner).rest = .step (.write fence t) next)
      (hcommit : c.store.commit fence now t = (.error e, c.store)) :
      Turn id c (c.set owner c.store { c.workers owner with rest := next (.error e) })
  | dispatch {owner : String} {a : Action} {next : Except DispatchError Unit → Program Unit}
      (hnext : (c.workers owner).rest = .step (.dispatch a) next)
      (answer : Except DispatchError Unit) :
      Turn id c (c.set owner c.store { c.workers owner with rest := next answer })
  | report (fence : Option Fence) (now : Nat) (r : StatusReport) :
      Turn id c ⟨(c.store.commit fence now (report r.action r.status r.reportedAt)).2, c.workers⟩

/-- The invariant: the store is balanced, and what is left of every work is careful. -/
structure Sane (id : RolloutId) (c : System) : Prop where
  balanced : c.store.Balanced
  careful : ∀ owner, (c.workers owner).rest.Careful id owner (c.workers owner).Stops
    (fun _ _ _ => True) (c.workers owner).known c.store

variable {id : RolloutId} {c c' : System} {owner : String}

/-- Nobody is disturbed by a worker that goes on carefully. -/
lemma Sane.set (h : Sane id c) {s : Store} {w : Worker} (hb : s.Balanced)
    (hothers : ∀ other, other ≠ owner → Meanwhile id other c.store s)
    (hrest : w.rest.Careful id owner w.Stops (fun _ _ _ => True) w.known s) :
    Sane id (c.set owner s w) where
  balanced := hb
  careful other := by
    by_cases hother : other = owner
    · subst hother
      simp only [System.set, Function.update_self]
      exact hrest
    · simp only [System.set, Function.update_of_ne hother]
      exact (h.careful other).meanwhile (fun _ _ _ _ _ h => h) (hothers other hother)

/-- A report disturbs no holder of a lease. -/
lemma meanwhile_report {s s' : Store} (h : s.Balanced) {r : StatusReport} {outcome : ReportOutcome}
    (hrun : report r.action r.status r.reportedAt s = .ok (outcome, s')) (owner : String) :
    Meanwhile id owner s s' := by
  obtain ⟨-, hrollouts, hgroups⟩ := report_balanced h hrun
  have hleases : s'.leases = s.leases := (KeepsBeside.report _ _ _ s outcome s' hrun).leases
  refine ⟨fun ⟨l, hl, hname⟩ => ⟨l, ?_, hname⟩, fun _ => by rw [hrollouts], hgroups⟩
  rw [lease?, Table.intact?, hleases, ← Table.intact?, ← lease?] at hl
  exact hl

/-- **Every turn keeps the system sane.** -/
theorem Sane.turn (h : Sane id c) (hturn : Turn id c c') : Sane id c' := by
  have hstay : ∀ owner other, other ≠ owner → Meanwhile id other c.store c.store :=
    fun _ _ _ => .refl c.store
  cases hturn with
  | begin hidle hjob =>
    exact h.set h.balanced (hstay _) (Job.careful hjob fun ⟨m, hm⟩ => ⟨m, congrArg some hm⟩)
  | leave owner => exact h.set h.balanced (hstay _) trivial
  | @clock owner next hnext now =>
    have hcareful := h.careful owner
    rw [hnext] at hcareful
    exact h.set h.balanced (hstay _) (hcareful now)
  | @look owner α view next known hnext hknown =>
    have hcareful := h.careful owner
    rw [hnext] at hcareful
    exact h.set h.balanced (hstay _) (hcareful _ _ (.refl _) h.balanced hknown)
  | @write owner α fence t next now a s known hnext hcommit hknown =>
    have hcareful := h.careful owner
    rw [hnext] at hcareful
    obtain ⟨-, hfair, hrest⟩ := (hcareful _ now (.refl _) h.balanced).2 a s hcommit
    exact h.set hfair.respects.balanced hfair.others (hrest _ hknown)
  | @refused owner α fence t next now e hnext hcommit =>
    have hcareful := h.careful owner
    rw [hnext] at hcareful
    exact h.set h.balanced (hstay _) ((hcareful _ now (.refl _) h.balanced).1 e hcommit)
  | @dispatch owner a next hnext answer =>
    have hcareful := h.careful owner
    rw [hnext] at hcareful
    exact h.set h.balanced (hstay _) (hcareful answer)
  | report fence now r =>
    rcases c.store.commit_outcome fence now (report r.action r.status r.reportedAt) with
      ⟨e, -, heq⟩ | ⟨-, ⟨e, -, heq⟩ | ⟨outcome, s, hrun, heq⟩⟩ <;> rw [heq]
    · exact h
    · exact h
    · exact ⟨(report_balanced h.balanced hrun).1, fun owner =>
        (h.careful owner).meanwhile (fun _ _ _ _ _ h => h) (meanwhile_report h.balanced hrun owner)⟩

/-- **No update is lost.**  Workers with different names work on a rollout in any order, and devices
report.  Counters always agree with the actions.  A write that may change the rollout's row replaces
the row that its writer last read or wrote.  And no write takes back what was reported: counters do
not fall and actions stay as they are, except that a stop asks devices to cancel open ones. -/
theorem no_update_lost {c₀ c : System} (hbalanced : c₀.store.Balanced)
    (hidle : ∀ owner, (c₀.workers owner).rest = .done ())
    (hreach : Relation.ReflTransGen (Turn id) c₀ c) :
    (∀ key g, c.store.group? key = some g → ∀ status,
      g.counts.get status = c.store.tally key status) ∧
    ∀ (owner : String) {α : Type} {fence : Option Fence} {t : Transaction α}
      {next : Except StoreError α → Program Unit} {now : Nat} {a : α} {s : Store},
      (c.workers owner).rest = .step (.write fence t) next →
      c.store.commit fence now t = (.ok a, s) →
      (t.WritesRow id → (c.workers owner).known = some (Table.read c.store.rollouts id)) ∧
        c.store.Respects (c.workers owner).Stops s := by
  have hsane : Sane id c := by
    induction hreach with
    | refl =>
      refine ⟨hbalanced, fun owner => ?_⟩
      rw [hidle owner]
      trivial
    | tail _ hturn ih => exact ih.turn hturn
  refine ⟨fun key g hg => hsane.balanced.counted hg, ?_⟩
  intro owner α fence t next now a s hnext hcommit
  have hcareful := hsane.careful owner
  rw [hnext] at hcareful
  obtain ⟨hknown, hfair, -⟩ := (hcareful _ now (.refl _) hsane.balanced).2 a s hcommit
  exact ⟨hknown, hfair.respects⟩

/-- The run is over, and nobody works on its rollout. -/
def atRest : System := ⟨Run.threeStages.store, fun _ => ⟨none, .done (), none⟩⟩

/-- An operator pauses the rollout. -/
def pausing : Job := .command ⟨none, .standard, false, 30000, "operator"⟩ .pause

/-- The rollout as the operator leaves it. -/
def paused : Rollout := { Run.midway with state := .paused, updatedAt := 20 }

/-- The lease that the operator gets. -/
def taken : Lease := ⟨Lease.rolloutKey "r", "operator", 3, 40000⟩

/-- The store once the operator has the lease. -/
def leased : Store :=
  (Run.threeStages.store.commit none 0
    (acquireLease (Lease.rolloutKey "r") "operator" 10000 30000)).2

/-- The store once the second device has reported, too. -/
def reported : Store := (leased.commit none 0 (report "r:0001:b" .finishedSuccess 8)).2

/-- The effects of the operator's work up to its write, with the answers that it gets. -/
lemma effects_pausing :
    ∃ next₁, pausing.program "r" = .step .clock next₁ ∧
    ∃ next₂, next₁ 10000 = .step (.write none
      (acquireLease (Lease.rolloutKey "r") "operator" 10000 30000)) next₂ ∧
    ∃ next₃, next₂ (.ok (.granted taken)) =
      .step (.look fun s => Table.read s.rollouts "r") next₃ ∧
    ∃ next₄, next₃ (.ok (some Run.midway)) = .step .clock next₄ ∧
    ∃ next₅, next₄ 20000 = .step (.write (some ⟨Lease.rolloutKey "r", "operator", 3⟩)
      (putRollout paused)) next₅ :=
  ⟨_, rfl, _, rfl, _, rfl, _, rfl, _, rfl⟩

/-- A device reports between the operator's lease and its write, and both are kept. -/
theorem no_update_lost_pausing :
    ∃ (c : System) (s : Store), Relation.ReflTransGen (Turn "r") atRest c ∧ c.store = reported ∧
      c.store.commit (some ⟨Lease.rolloutKey "r", "operator", 3⟩) 20000 (putRollout paused) =
        (.ok (), s) ∧
      (c.workers "operator").known = some (Table.read reported.rollouts "r") ∧
      c.store.Respects (c.workers "operator").Stops s := by
  obtain ⟨next₁, hnext₁, next₂, hnext₂, next₃, hnext₃, next₄, hnext₄, next₅, hnext₅⟩ :=
    effects_pausing
  have hacquire : Run.threeStages.store.commit none 0
      (acquireLease (Lease.rolloutKey "r") "operator" 10000 30000) =
      (.ok (.granted taken), leased) := Prod.ext (by cbv) rfl
  have hread : Table.read reported.rollouts "r" = .ok (some Run.midway) := by cbv
  have hcommit : reported.commit (some ⟨Lease.rolloutKey "r", "operator", 3⟩) 20000
      (putRollout paused) = (.ok (), reported.withRollout paused) := by cbv
  have hcalm : ¬ (acquireLease (Lease.rolloutKey "r") "operator" 10000 30000).WritesRow "r" :=
    (Calm.acquireLease _ _ _ _).not_writesRow
  have hshows : ShowsRow "r" fun s : Store => Table.read s.rollouts "r" := ⟨id, fun _ => rfl⟩
  have hwrites : (putRollout paused).WritesRow "r" := ⟨.empty, (), _, rfl, by decide⟩
  -- the operator begins, reads the clock and takes the lease
  let c₁ := atRest.set "operator" atRest.store ⟨some pausing, pausing.program "r", none⟩
  have h₁ : Turn "r" atRest c₁ := .begin rfl rfl
  let c₂ := c₁.set "operator" atRest.store ⟨some pausing, next₁ 10000, none⟩
  have h₂ : Turn "r" c₁ c₂ := .clock hnext₁ 10000
  let c₃ := c₂.set "operator" leased ⟨some pausing, next₂ (.ok (.granted taken)), none⟩
  have h₃ : Turn "r" c₂ c₃ := .write hnext₂ hacquire (.same hcalm none)
  -- the device reports, and the operator reads the rollout and the clock
  let c₄ : System := ⟨reported, c₃.workers⟩
  have h₄ : Turn "r" c₃ c₄ := .report none 0 ⟨"r:0001:b", .finishedSuccess, 8⟩
  let c₅ := c₄.set "operator" reported ⟨some pausing, next₃ (Table.read reported.rollouts "r"),
    some (Table.read reported.rollouts "r")⟩
  have h₅ : Turn "r" c₄ c₅ := @Turn.look "r" c₄ "operator" _ _ _ _ hnext₃ (.row hshows none)
  let c₆ := c₅.set "operator" reported ⟨some pausing, next₄ 20000,
    some (Table.read reported.rollouts "r")⟩
  have h₆ : Turn "r" c₅ c₆ := .clock (by rw [← hnext₄, ← hread]; rfl) 20000
  have hreach : Relation.ReflTransGen (Turn "r") atRest c₆ :=
    .tail (.tail (.tail (.tail (.tail (.tail .refl h₁) h₂) h₃) h₄) h₅) h₆
  obtain ⟨hknown, hrespects⟩ := (no_update_lost Run.threeStages.sound.balanced (fun _ => rfl)
    hreach).2 "operator" hnext₅ hcommit
  exact ⟨c₆, _, hreach, rfl, hcommit, hknown hwrites, hrespects⟩

end System

end StagedRollout
