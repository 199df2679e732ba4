/-
# A scheduler that loses its lease changes nothing more

While devices are told about their actions, time passes, and somebody else may take the lease of
the rollout that a scheduler works on.  From then on the scheduler changes neither a row nor the
new lease.  Its step ends with a value or with the news of the lost lease, so its cycle counts the
rollout as held by somebody else, remembers no failure and does not give the rollout up
(`Scheduler.visit_after_takeover`).
-/
import StagedRollout.Proofs.Invariants
import StagedRollout.Proofs.Scheduler.Holding

namespace StagedRollout

open Store Transaction Progression

variable {α β : Type}

/-- Whoever takes a rollout has its lease. -/
lemma acquireFor_silent (owner : String) (ttl : Nat) (id : RolloutId) (s : Store) :
    Operation.Under Terms.silent (RolloutLock.acquireFor owner ttl id)
      (fun g s' => ∃ token e, g = ⟨id, Lease.rolloutKey id, owner, token, e⟩ ∧
        Fence.Current ⟨Lease.rolloutKey id, owner, token⟩ s') (fun _ _ => True) s := by
  refine .bind (.now fun now => .bind (.mapError (.commit trivial (fun _ _ _ => trivial)
    fun _ _ => ⟨fun _ _ => trivial, fun grant s' hrun => ⟨trivial, ?_⟩⟩)))
  cases grant with
  | held l => exact .throw trivial
  | granted l =>
    have hacquired := acquireLease_eq_ok hrun
    refine .pure ⟨l.fencing, l.expiresAt, rfl, l, LeaseEvent.lease?_of_acquired hacquired, ?_, rfl⟩
    exact Fence.owner_of_acquired hacquired

namespace Scheduler

variable {sch : Scheduler} {id : RolloutId} {now : Nat} {retries : Retries} {report : CycleReport}

/-! ## One rollout of a cycle -/

/-- What a cycle makes of the result of a step. -/
def conclude (sch : Scheduler) (now : Nat) (id : RolloutId) (retries : Retries)
    (report : CycleReport) : Except SchedulerError Bool → Program (Retries × CycleReport)
  | .ok progressed =>
    let advanced := if progressed then report.advanced + 1 else report.advanced
    return (retries.erase id, { report with advanced := advanced })
  | .error (.lockContention _ _) =>
    return (retries, { report with contended := report.contended + 1 })
  | .error e =>
    if e.isLeaseLost then return (retries, { report with contended := report.contended + 1 })
    else do
      let report := { report with failed := report.failed + 1 }
      if e.isTransient then return (← sch.recordFailure id now e retries, report)
      else return (retries, report)

lemma visit_eq (hwaits : waits retries id now = false) :
    sch.visit now id retries report =
      ExceptT.run (sch.step id now) >>= sch.conclude now id retries report := by
  rw [visit, if_neg (by simp [hwaits])]
  refine congrArg _ (funext fun result => ?_)
  cases result with
  | ok progressed => rfl
  | error e => cases e <;> rfl

lemma giveUp_silent {owner : String} {ttl : Nat} (hlock : sch.lock = .ofStore owner ttl)
    (e : SchedulerError) : Operation.Silent (sch.giveUp id now e) := by
  have hrequire : Operation.Silent (requireRollout id) :=
    .bind (.mapError (.read _)) fun found => by
      cases found with
      | none => exact fun _ => .throw trivial
      | some r => exact fun _ => .pure trivial
  rw [giveUp, hlock]
  refine .bind (fun s => (acquireFor_silent owner ttl id s).mono (fun _ _ _ => trivial)
    fun _ _ h => h) fun g => .bind (.attempt (.mapError (.bind hrequire fun r => ?_)))
      fun result => ?_
  · exact .bind (.ofExcept _) fun r' => .mapError (.commit _ _)
  · exact .bind (.bind (.mapError (.commit _ _)) fun _ _ => .pure trivial) fun _ => .ofExcept result

lemma conclude_silent {owner : String} {ttl : Nat} (hlock : sch.lock = .ofStore owner ttl)
    (result : Except SchedulerError Bool) (s : Store) :
    Program.Under Terms.silent (sch.conclude now id retries report result) (fun _ _ => True) s := by
  have hrecord : ∀ e, Program.Under Terms.silent (sch.recordFailure id now e retries)
      (fun _ _ => True) s := by
    intro e
    unfold recordFailure
    dsimp only
    split
    · exact .bind (Program.Under.mono (giveUp_silent hlock e s) fun _ _ _ => .pure trivial)
    · exact .pure trivial
  cases result with
  | ok progressed => exact .pure trivial
  | error e =>
    cases e with
    | lockContention rollout holder => exact .pure trivial
    | rollout e | store e =>
      dsimp only [conclude]
      split
      · exact .pure trivial
      · split
        · exact .bind ((hrecord _).mono fun _ _ _ => .pure trivial)
        · exact .pure trivial

/-- Where a step has a value or tells of the lost lease, no failure is remembered. -/
lemma conclude_eq_done {result : Except SchedulerError Bool}
    (h : ∀ e, result = .error e → e.isLeaseLost = true) :
    ∃ retries' report', sch.conclude now id retries report result = .done (retries', report') ∧
      (retries' = retries ∨ retries' = retries.erase id) ∧ report'.failed = report.failed := by
  cases result with
  | ok progressed => exact ⟨_, _, rfl, .inr rfl, rfl⟩
  | error e =>
    have hlost := h e rfl
    cases e with
    | lockContention rollout holder => exact ⟨_, _, rfl, .inl rfl, rfl⟩
    | rollout e | store e =>
      refine ⟨retries, { report with contended := report.contended + 1 }, ?_, .inl rfl, rfl⟩
      simp only [conclude, hlost, if_true]
      rfl

end Scheduler

/-! ## Taking over -/

/-- What others do at a key while a holder's messages are on their way.  Either nobody purges what
the key guards, or nobody takes leases in the holder's name. -/
structure Others (env : Surroundings) (key owner : String) where
  events : Action → Store → List (LeaseEvent key)
  deliver_eq : ∀ a s, (env.deliver a s).2 = LeaseEvent.after (events a s) s
  lawful : (∀ a s, ∀ e ∈ events a s, e.call.isPurge = false) ∨
    ∀ a s, ∀ e ∈ events a s, e.call.asker? ≠ some owner

namespace Others

variable {env : Surroundings} {key owner : String}

/-- At the moment a device is told about an action, and meanwhile the lease is granted to somebody
else. -/
def Takes (others : Others env key owner) (m : Moment) : Prop :=
  ∃ a l, m.message = some a ∧ l ∈ LeaseEvent.grants (others.events a m.before) m.before ∧
    l.owner ≠ owner

lemma exists_ending (others : Others env key owner) (token : Nat) :
    ∃ may gone, Fence.Ending ⟨key, owner, token⟩ may gone ∧
      ∀ a s, ∀ e ∈ others.events a s, may e :=
  others.lawful.elim (fun h => ⟨_, _, Fence.ending_superseded _, h⟩)
    fun h => ⟨_, _, Fence.ending_lost _, h⟩

variable {token : Nat} {may : LeaseEvent key → Prop} {gone : Store → Prop}

section

variable (others : Others env key owner) (h : Fence.Ending ⟨key, owner, token⟩ may gone)
  (hmay : ∀ a s, ∀ e ∈ others.events a s, may e)
include h hmay

lemma meanwhile (a : Action) (s : Store) :
    (Fence.terms ⟨key, owner, token⟩ gone).meanwhile s (env.deliver a s).2 := by
  rw [others.deliver_eq]
  exact ⟨h.after_holds (hmay a s), h.after_stays (hmay a s)⟩

variable {m : Moment} (hm : m.Within (Fence.terms ⟨key, owner, token⟩ gone) env)
include hm

/-- Behind every moment the holder has the lease or has lost it for good. -/
lemma since_after (hs : Fence.Current ⟨key, owner, token⟩ m.before ∨ gone m.before) :
    Fence.Current ⟨key, owner, token⟩ m.after ∨ gone m.after := by
  cases hmessage : m.message with
  | none =>
    rcases hm.own hmessage with heq | hwrites
    · rwa [heq]
    · exact hs.imp hwrites.1 fun hg => (hwrites.2 hg).symm ▸ hg
  | some a =>
    rw [(hm.told a hmessage).2]
    exact hs.elim (others.meanwhile h hmay a m.before).1
      fun hg => .inr ((others.meanwhile h hmay a m.before).2 hg)

/-- A holding that is gone stays gone, and the holder changes nothing. -/
lemma gone_after (hg : gone m.before) :
    gone m.after ∧ (m.message = none → m.after = m.before) := by
  have hstill : m.message = none → m.after = m.before := fun hmessage =>
    (hm.own hmessage).elim id fun hwrites => hwrites.2 hg
  refine ⟨?_, hstill⟩
  cases hmessage : m.message with
  | none => exact (hstill hmessage).symm ▸ hg
  | some a =>
    rw [(hm.told a hmessage).2]
    exact (others.meanwhile h hmay a m.before).2 hg

/-- Where the lease is taken the holding is gone. -/
lemma gone_of_takes (hs : Fence.Current ⟨key, owner, token⟩ m.before ∨ gone m.before)
    (htakes : others.Takes m) : gone m.after := by
  obtain ⟨a, l, hmessage, hl, hother⟩ := htakes
  rw [(hm.told a hmessage).2, others.deliver_eq]
  exact h.after_taken (hmay a m.before) hs hl hother

omit hm in
/-- **Once the lease is taken the holder changes nothing more.** -/
lemma still_of_linked {l : List Moment} {s s' : Store} (hlinked : Moment.Linked s l s')
    (hs : Fence.Current ⟨key, owner, token⟩ s ∨ gone s)
    (hwithin : ∀ m ∈ l, m.Within (Fence.terms ⟨key, owner, token⟩ gone) env) :
    (l.Pairwise fun m m' => others.Takes m → m'.message = none → m'.after = m'.before) ∧
      ((∃ m ∈ l, others.Takes m) → gone s') := by
  induction l generalizing s with
  | nil => exact ⟨.nil, fun ⟨_, hm, _⟩ => absurd hm List.not_mem_nil⟩
  | cons m rest ih =>
    obtain ⟨rfl, hrest⟩ := hlinked
    obtain ⟨hfirst, hlater⟩ := List.forall_mem_cons.1 hwithin
    obtain ⟨hpairwise, hend⟩ := ih hrest (others.since_after h hmay hfirst hs) hlater
    -- the moments behind one at which the lease is taken
    have hgone : others.Takes m →
        (∀ m' ∈ rest, m'.message = none → m'.after = m'.before) ∧ gone s' := by
      intro htakes
      obtain ⟨hbefore, hgone⟩ := hrest.invariant (others.gone_of_takes h hmay hfirst hs htakes)
        fun m' hm' hg => (others.gone_after h hmay (hlater m' hm') hg).1
      exact ⟨fun m' hm' => (others.gone_after h hmay (hlater m' hm') (hbefore m' hm')).2, hgone⟩
    refine ⟨List.pairwise_cons.2 ⟨fun m' hm' htakes => (hgone htakes).1 m' hm', hpairwise⟩, ?_⟩
    rintro ⟨m', hm', htakes⟩
    rcases List.mem_cons.1 hm' with rfl | hm'
    · exact (hgone htakes).2
    · exact hend ⟨m', hm', htakes⟩

end

lemma not_takes_of_silent (others : Others env key owner) {m : Moment}
    (hm : m.Within Terms.silent env) : ¬ others.Takes m := by
  rintro ⟨a, l, hmessage, -⟩
  exact (hm.told a hmessage).1

/-! ### Programs that yield -/

/-- Once the lease is taken a run of the program changes nothing more, and it ends as promised. -/
structure Yields (others : Others env key owner) (p : Program α) (Q : α → Prop) (w : World) :
    Prop where
  still : (p.moments env w).Pairwise fun m m' =>
    others.Takes m → m'.message = none → m'.after = m'.before
  ends : (∃ m ∈ p.moments env w, others.Takes m) → Q (p.run env w).1

variable {others : Others env key owner} {p : Program α} {w : World}

/-- Nothing is taken from a program that sends no messages. -/
lemma Yields.of_silent {Q : α → Prop} (hp : p.Under Terms.silent (fun _ _ => True) w.store) :
    others.Yields p Q w where
  still := by
    refine List.Pairwise.imp_of_mem (fun hm _ _ htakes => ?_)
      (List.pairwise_of_forall fun _ _ => trivial)
    exact absurd htakes (others.not_takes_of_silent ((hp.run fun _ _ => trivial).1 _ hm))
  ends := by
    rintro ⟨m, hm, htakes⟩
    exact absurd htakes (others.not_takes_of_silent ((hp.run fun _ _ => trivial).1 m hm))

/-- A program without messages, and one that yields behind it. -/
lemma Yields.bind_of_silent {g : α → Program β} {P : α → Store → Prop} {Q : β → Prop}
    (hp : p.Under Terms.silent P w.store)
    (hg : ∀ a w', P a w'.store → others.Yields (g a) Q w') : others.Yields (p >>= g) Q w := by
  have henv : ∀ a s, Terms.silent.meanwhile s (env.deliver a s).2 := fun _ _ => trivial
  obtain ⟨hwithin, hpost⟩ := hp.run henv
  have hnot : ∀ m ∈ p.moments env w, ¬ others.Takes m := fun m hm =>
    others.not_takes_of_silent (hwithin m hm)
  have hnext := hg _ _ hpost
  constructor
  · rw [Program.moments_bind]
    exact List.pairwise_append.2 ⟨(Yields.of_silent (Q := fun _ => True)
      (hp.mono fun _ _ _ => trivial)).still, hnext.still,
      fun m hm _ _ htakes => absurd htakes (hnot m hm)⟩
  · rw [Program.moments_bind, Program.run_bind]
    rintro ⟨m, hm, htakes⟩
    rcases List.mem_append.1 hm with hm | hm
    · exact absurd htakes (hnot m hm)
    · exact hnext.ends ⟨m, hm, htakes⟩

/-- A program that yields, and one without messages behind it that does nothing where the lease was
taken. -/
lemma Yields.bind_silent {g : α → Program β} {P : α → Prop} {Q : β → Prop}
    (hp : others.Yields p P w) (hg : ∀ a s, (g a).Under Terms.silent (fun _ _ => True) s)
    (hend : ∀ a, P a → ∃ b, g a = .done b ∧ Q b) : others.Yields (p >>= g) Q w := by
  have hnext : others.Yields (g (p.run env w).1) Q (p.run env w).2 := .of_silent (hg _ _)
  constructor
  · rw [Program.moments_bind]
    refine List.pairwise_append.2 ⟨hp.still, hnext.still, fun m hm m' hm' htakes => ?_⟩
    obtain ⟨b, hdone, -⟩ := hend _ (hp.ends ⟨m, hm, htakes⟩)
    rw [hdone] at hm'
    exact absurd hm' List.not_mem_nil
  · rw [Program.moments_bind, Program.run_bind]
    rintro ⟨m, hm, htakes⟩
    rcases List.mem_append.1 hm with hm | hm
    · obtain ⟨b, hdone, hb⟩ := hend _ (hp.ends ⟨m, hm, htakes⟩)
      rw [hdone]
      exact hb
    · exact hnext.ends ⟨m, hm, htakes⟩

end Others

namespace Scheduler

variable {sch : Scheduler} {env : Surroundings} {owner : String} {ttl now : Nat} {id : RolloutId}
  {retries : Retries} {report : CycleReport} {w : World}

/-- A step whose lease is taken has a value or tells so. -/
lemma step_yields (hlock : sch.lock = .ofStore owner ttl)
    (hlive : ∀ live, sch.live = some live → live.resolver.Reads)
    (others : Others env (Lease.rolloutKey id) owner) :
    others.Yields (ExceptT.run (sch.step id now))
      (fun result => ∀ e, result = .error e → e.isLeaseLost = true) w := by
  rw [step_eq, ExceptT.run_bind]
  have hacquire := acquireFor_silent owner ttl id w.store
  rw [show RolloutLock.acquireFor owner ttl id = sch.lock.acquire id by rw [hlock]; rfl] at hacquire
  refine Others.Yields.bind_of_silent hacquire fun result w hpost => ?_
  cases result with
  | error e => exact .of_silent trivial
  | ok g =>
    obtain ⟨token, e, rfl, hcurrent⟩ := hpost
    obtain ⟨may, gone, h, hmay⟩ := others.exists_ending token
    obtain ⟨hwithin, hend⟩ := Program.Under.run (others.meanwhile h hmay)
      (workUnder_holding h hlock hlive hcurrent)
    obtain ⟨hstill, hgone⟩ := others.still_of_linked h hmay (Program.moments_linked _ env w)
      (.inl hcurrent) hwithin
    refine ⟨hstill, fun htakes err herr => ?_⟩
    have hlost := hgone htakes
    change ((ExceptT.run (sch.workUnder id now _)).run env w).1 = _ at herr
    rw [herr] at hend
    rcases hend with hcurrent | ⟨-, htells⟩
    · exact absurd hcurrent (h.lost hlost).not_current
    · exact htells

/-- **A scheduler whose lease is taken changes nothing more.**  Behind a message during which the
lease is granted to somebody else no effect of the scheduler changes the store, be it a row or the
new lease, and the cycle neither remembers a failure of the rollout nor gives it up. -/
theorem visit_after_takeover (hlock : sch.lock = .ofStore owner ttl)
    (hlive : ∀ live, sch.live = some live → live.resolver.Reads)
    (others : Others env (Lease.rolloutKey id) owner) :
    (((sch.visit now id retries report).moments env w).Pairwise fun m m' =>
      others.Takes m → m'.message = none → m'.after = m'.before) ∧
    ((∃ m ∈ (sch.visit now id retries report).moments env w, others.Takes m) →
      let (retries', report') := ((sch.visit now id retries report).run env w).1
      (retries' = retries ∨ retries' = retries.erase id) ∧ report'.failed = report.failed) := by
  have hyields : others.Yields (sch.visit now id retries report) (fun (retries', report') =>
      (retries' = retries ∨ retries' = retries.erase id) ∧ report'.failed = report.failed) w := by
    cases hwaits : waits retries id now with
    | true =>
      rw [visit, if_pos hwaits]
      exact .of_silent (.pure trivial)
    | false =>
      rw [visit_eq hwaits]
      refine (step_yields hlock hlive others).bind_silent (conclude_silent hlock) fun result h => ?_
      obtain ⟨retries', report', hdone, hend⟩ := conclude_eq_done h
      exact ⟨_, hdone, hend⟩
  exact ⟨hyields.still, hyields.ends⟩

/-- A thief takes the lease of a rollout whenever a device is told about an action. -/
def thief : LeaseEvent (Lease.rolloutKey "r") := ⟨none, 0, .acquire "thief" 1000000 30000⟩

/-- The surroundings of a scheduler that the thief follows. -/
def stealing : Surroundings := ⟨fun n => 1000 * n, fun _ s => (.ok (), LeaseEvent.after [thief] s)⟩

/-- The thief is the only one who does something. -/
def onlyThief : Others stealing (Lease.rolloutKey "r") "scheduler" where
  events _ _ := [thief]
  deliver_eq _ _ := rfl
  lawful := .inl fun _ _ _ he => List.mem_singleton.1 he ▸ rfl

open scoped Run in
/-- The scheduler starts the first group of a rollout and loses the lease on the way. -/
theorem visit_after_takeover_thief :
    let p := Run.scheduler.visit 5 "r" .empty .zero
    let w : World := World.ofStore (Run.store (Run.threeStages.take 4))
    Table.read (p.run stealing w).2.store.leases (Lease.rolloutKey "r") =
        .ok (some ⟨Lease.rolloutKey "r", "thief", 2, 1030000⟩) ∧
      ((p.moments stealing w).Pairwise fun m m' =>
        onlyThief.Takes m → m'.message = none → m'.after = m'.before) := by
  refine ⟨by cbv, (visit_after_takeover rfl ?_ onlyThief).1⟩
  exact fun _ hlive => Option.some.inj hlive ▸ Resolver.ofStore_reads

end Scheduler

end StagedRollout
