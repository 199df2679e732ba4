/-
# What activities do to a store

Whatever somebody does who works on rollouts, each of the writes changes rollouts, groups and
actions only, or it is on a lease (`Store.Tends`).  Cleanup also takes a lease out of the table,
when it marks a rollout as gone (`Store.Clears`), and devices and saved filters are registered and
removed by activities of their own (`Activity.Registers`).  This is shown of the programs along
their definitions (`Activity.writes`), so it is true of every write, whatever others do to the store
before it and wherever the program is cut off.

For the lease of a key this comes to the following: a write leaves it alone, grants it, extends it
or gives it up (`Store.Handles`), or cleanup removes it (`Store.Reclaims`).
-/
import StagedRollout.Proofs.Operator.Atomic
import StagedRollout.Proofs.Scheduler.LostLease

namespace StagedRollout

open Store Transaction Progression

variable {α β ε : Type} {key : String} {s s' : Store}

/-! ## Writes -/

namespace Store

/-- What a write of somebody who works on rollouts does. -/
inductive Tends (s : Store) : Store → Prop
  /-- Rollouts, groups and actions change at most. -/
  | progress {s' : Store} (h : s.SameBeside s') : Tends s s'
  | granted {key owner : String} {now ttl : Nat} {g : LeaseGrant} {s' : Store}
      (h : Acquired key owner now ttl s g s') : Tends s s'
  | kept {key owner : String} {token : Nat} {found : Option Lease} {s' : Store}
      (h : Upkept key owner token s found s') : Tends s s'

/-- What a write of a cleanup pass does. -/
inductive Clears (s : Store) : Store → Prop
  | progress {s' : Store} (h : s.SameBeside s') : Clears s s'
  /-- A rollout is gone, and with it the lease that guarded it. -/
  | purged {r : Rollout} {u : Unit} {s' : Store} (h : purgeRollout r s = .ok (u, s')) : Clears s s'

/-- The devices and the saved filters are the same. -/
def SameRegistry (s t : Store) : Prop := t.targets = s.targets ∧ t.filters = s.filters

/-- **Work on rollouts leaves devices and saved filters alone.** -/
lemma Tends.sameRegistry (h : s.Tends s') : s.SameRegistry s' := by
  cases h with
  | progress h => exact ⟨h.targets, h.filters⟩
  | granted h => cases h <;> exact ⟨rfl, rfl⟩
  | kept h => cases h <;> exact ⟨rfl, rfl⟩

lemma Clears.sameRegistry (h : s.Clears s') : s.SameRegistry s' := by
  cases h with
  | progress h => exact ⟨h.targets, h.filters⟩
  | purged h =>
    obtain ⟨-, rfl⟩ := Prod.mk.inj (Except.ok.inj h)
    exact ⟨rfl, rfl⟩

/-! ### The lease of a key -/

/-- What may become of the lease of a key. -/
inductive Handles (key : String) (s : Store) : Store → Prop
  | spared {s' : Store} (h : s.SameLease key s') : Handles key s s'
  | granted {owner : String} {now ttl : Nat} {g : LeaseGrant} {s' : Store}
      (h : Acquired key owner now ttl s g s') : Handles key s s'
  | kept {owner : String} {token : Nat} {found : Option Lease} {s' : Store}
      (h : Upkept key owner token s found s') : Handles key s s'

/-- What cleanup may do to the lease of a key: the key guarded a rollout, and its row is removed. -/
def Reclaims (key : String) (s s' : Store) : Prop :=
  s.SameLease key s' ∨ (∃ id, key = Lease.rolloutKey id) ∧ s'.leases.find? key = none

/-- The lease of another key is not touched. -/
lemma SameLease.withLease {k : String} (h : key ≠ k) (s : Store) (l : Lease) :
    s.SameLease key (s.withLease k l) :=
  (OrderedMap.find?_insert _ _ _ _).trans (if_neg h)

lemma Tends.handles (h : s.Tends s') (key : String) : s.Handles key s' := by
  cases h with
  | progress h => exact .spared (.of_leases h.leases)
  | @granted k _ _ _ _ _ h =>
    by_cases hk : key = k
    · subst hk
      exact .granted h
    · refine .spared ?_
      cases h with
      | held => exact .of_eq rfl
      | first | next | again => exact .withLease hk _ _
  | @kept k _ _ _ _ h =>
    by_cases hk : key = k
    · subst hk
      exact .kept h
    · refine .spared ?_
      cases h with
      | lost => exact .of_eq rfl
      | kept => exact .withLease hk _ _

lemma Clears.reclaims (h : s.Clears s') (key : String) : s.Reclaims key s' := by
  cases h with
  | progress h => exact .inl (.of_leases h.leases)
  | @purged r u _ h =>
    by_cases hk : key = Lease.rolloutKey r.id
    · obtain ⟨-, rfl⟩ := Prod.mk.inj (Except.ok.inj h)
      exact .inr ⟨⟨r.id, hk⟩, by rw [hk, OrderedMap.find?_erase, if_pos rfl]⟩
    · exact .inl (SparesLease.purgeRollout hk s u s' h)

end Store

/-! ## Advancing and resolving -/

/-- The operation works on rollouts. -/
abbrev Operation.Tends (op : Operation ε α) : Prop := Operation.Writes Store.Tends op

/-- A write on rollouts, groups and actions. -/
lemma Operation.Writes.keeps (fence : Option Fence) {t : Transaction α} (ht : t.KeepsBeside) :
    (Operation.commit fence t).Tends :=
  .commit fence fun s a s' h => .progress (ht s a s' h)

lemma Operation.Writes.acquireLease (fence : Option Fence) (key owner : String) (now ttl : Nat) :
    (Operation.commit fence (Transaction.acquireLease key owner now ttl)).Tends :=
  .commit fence fun _ _ _ h => .granted (acquireLease_eq_ok h)

lemma Operation.Writes.renewLease (fence : Option Fence) (key owner : String)
    (token now ttl : Nat) :
    (Operation.commit fence (Transaction.renewLease key owner token now ttl)).Tends :=
  .commit fence fun _ _ _ h => .kept (renewLease_eq_ok h)

lemma Operation.Writes.releaseLease (fence : Option Fence) (key owner : String) (token : Nat) :
    (Operation.commit fence (Transaction.releaseLease key owner token)).Tends := by
  refine .commit fence fun _ _ _ h => ?_
  obtain ⟨found, hkept, -⟩ := releaseLease_eq_ok h
  exact .kept hkept

namespace Progression

variable {fence : Option Fence} {now : Nat} {r : Rollout} {g : RolloutGroup} {id : RolloutId}

lemma saveRollout_tends : (saveRollout fence r).Tends :=
  .mapError (.keeps fence (.putRollout r))

lemma requireRollout_tends : (requireRollout id).Tends :=
  .of_reads (Operator.get_reads id)

lemma notify_tends (actions : List Action) : (notify actions).Writes Store.Tends := by
  induction actions with
  | nil => trivial
  | cons a rest ih => exact ⟨trivial, fun _ => ih⟩

lemma issue_tends (targets : List TargetId) : (issue fence r g targets now).Tends :=
  .bind (.mapError (.keeps fence (.issueActions _ _ _))) fun issued =>
    .bind (.lift (notify_tends issued.created)) fun _ => .pure issued

lemma startGroup_tends : (startGroup fence r g now).Tends := by
  unfold startGroup
  split
  · exact .bind (issue_tends _) fun issued => .pure issued.group
  · exact .bind (issue_tends _) fun issued => .pure issued.group
  · exact .pure g
  · exact .throw _
  · exact .throw _

lemma enter_tends {previous : Option RolloutGroup} :
    (enter fence now previous r g).Tends := by
  unfold enter
  cases g.state with
  | finished | error => exact .pure _
  | scheduled | ready =>
    dsimp only
    split
    · exact .bind startGroup_tends fun g' => .pure _
    · exact .pure _
  | running =>
    dsimp only
    split
    · exact .bind (issue_tends _) fun issued => .pure _
    · exact .pure _

lemma walk_tends {previous : Option RolloutGroup} (groups : List RolloutGroup) {adv : Advance} :
    (walk fence now previous groups r adv).Tends := by
  induction groups generalizing previous r adv with
  | nil => exact .bind (.ofExcept _) fun r' => .bind saveRollout_tends fun _ => .pure _
  | cons g rest ih =>
    refine .bind enter_tends fun entry => ?_
    cases entry with
    | passed => exact ih
    | blocked => exact .pure _
    | running g started =>
      dsimp only
      cases g.settle? g.verdict now with
      | none => exact .pure _
      | some settled =>
        dsimp only
        split
        · exact .bind (.ofExcept _) fun r' =>
            .bind (.mapError (.keeps fence (.putRolloutWithGroups _ _))) fun _ => .pure _
        · exact .bind (.mapError (.keeps fence (.putGroup settled))) fun _ => ih

lemma begin?_tends : (begin? fence now r).Tends := by
  unfold begin?
  split
  · split
    · exact .bind (.ofExcept _) fun r' => .bind saveRollout_tends fun _ => .pure _
    · exact .pure _
  · exact .pure _

lemma takeUp_tends : (takeUp fence now r).Tends := by
  unfold takeUp
  split
  · exact .bind (.ofExcept _) fun r' => .bind saveRollout_tends fun _ => .pure _
  · exact .pure _

lemma advance_tends : (advance fence id now).Tends := by
  refine .bind requireRollout_tends fun r => ?_
  dsimp only
  split
  · exact .pure _
  refine .bind begin?_tends fun found => ?_
  cases found with
  | none => exact .pure _
  | some r =>
    refine .bind takeUp_tends fun r => ?_
    split
    · exact .bind (.mapError (.read _)) fun groups => .bind (walk_tends groups) fun _ => .pure _
    · exact .pure _

end Progression

namespace Live

variable {fence : Option Fence} {now : Nat} {id : RolloutId}

lemma extend_tends (g : RolloutGroup) (targets : List TargetId) :
    (extend fence g targets now).Tends := by
  refine .bind (.mapError (.keeps fence (.appendTargets _ _))) fun p => ?_
  dsimp only
  split
  · exact .bind (issue_tends _) fun _ => .pure _
  · exact .pure _

lemma refresh_tends {live : Live} (hresolver : live.resolver.Reads) :
    (live.refresh fence id now).Tends := by
  refine .bind requireRollout_tends fun r => ?_
  split
  · refine .bind (.mapError (.read _)) fun groups => .bind (.of_reads (hresolver _)) fun found => ?_
    dsimp only
    split
    · exact .bind saveRollout_tends fun _ => .pure _
    · exact .bind (extend_tends _ _) fun r => .bind saveRollout_tends fun _ => .pure _
  · exact .pure _

end Live

/-! ## Cycles -/

namespace RolloutLock

variable {owner : String} {ttl : Nat}

lemma acquireFor_tends (id : RolloutId) : (acquireFor owner ttl id).Tends := by
  refine .bind .now fun now => .bind (.mapError (.acquireLease none _ _ _ _)) fun grant => ?_
  cases grant with
  | granted l => exact .pure _
  | held l => exact .throw _

lemma renewFor_tends (g : Guard) : (renewFor owner ttl g).Tends := by
  refine .bind .now fun now => .bind (.mapError (.renewLease none _ _ _ _ _)) fun found => ?_
  cases found with
  | some l => exact .pure _
  | none => exact .pure _

lemma releaseFor_tends (g : Guard) : (releaseFor owner g).Tends :=
  .bind (.mapError (.releaseLease none _ _ _)) fun _ => .pure _

end RolloutLock

namespace Scheduler

variable {sch : Scheduler} {owner : String} {ttl now : Nat} {id : RolloutId} {retries : Retries}
  {report : CycleReport}

/-- A scheduler keeps its leases in the store, and its resolver only looks. -/
structure Stored (sch : Scheduler) : Prop where
  lock : ∃ owner ttl, sch.lock = .ofStore owner ttl
  live : ∀ live, sch.live = some live → live.resolver.Reads

namespace Stored

variable (h : sch.Stored)
include h

lemma acquire_tends : (sch.lock.acquire id).Tends := by
  obtain ⟨owner, ttl, hlock⟩ := h.lock
  rw [hlock]
  exact RolloutLock.acquireFor_tends id

lemma renew_tends (g : Guard) : (sch.lock.renew g).Tends := by
  obtain ⟨owner, ttl, hlock⟩ := h.lock
  rw [hlock]
  exact RolloutLock.renewFor_tends g

lemma release_tends (g : Guard) : (sch.lock.release g).Tends := by
  obtain ⟨owner, ttl, hlock⟩ := h.lock
  rw [hlock]
  exact RolloutLock.releaseFor_tends g

lemma stepUnder_tends (g : Guard) : (sch.stepUnder id now g).Tends := by
  refine .bind (.mapError advance_tends) fun adv => ?_
  cases hfound : sch.live with
  | none => exact .pure _
  | some live =>
    refine .bind (h.renew_tends g) fun p => ?_
    dsimp only
    split
    · exact .bind (.mapError (Live.refresh_tends (h.live live hfound))) fun _ => .pure _
    · exact .pure _

lemma step_tends : (sch.step id now).Tends :=
  .bind h.acquire_tends fun g => .bind (.attempt (h.stepUnder_tends g)) fun result =>
    .bind (.attempt (h.release_tends g)) fun _ => .ofExcept result

lemma giveUp_tends (e : SchedulerError) : (sch.giveUp id now e).Tends :=
  .bind h.acquire_tends fun g => .bind (.attempt (.mapError (.bind requireRollout_tends fun _ =>
    .bind (.ofExcept _) fun _ => saveRollout_tends))) fun result =>
      .bind (h.release_tends g) fun _ => .ofExcept result

lemma recordFailure_tends (e : SchedulerError) :
    (sch.recordFailure id now e retries).Writes Store.Tends := by
  unfold recordFailure
  dsimp only
  split
  · exact .bind (h.giveUp_tends e) fun _ => trivial
  · trivial

lemma conclude_tends (result : Except SchedulerError Bool) :
    (sch.conclude now id retries report result).Writes Store.Tends := by
  cases result with
  | ok progressed => trivial
  | error e =>
    cases e with
    | lockContention rollout holder => trivial
    | rollout e | store e =>
      dsimp only [conclude]
      split
      · trivial
      · split
        · exact .bind (h.recordFailure_tends _) fun _ => trivial
        · trivial

lemma visit_tends : (sch.visit now id retries report).Writes Store.Tends := by
  cases hwaits : waits retries id now with
  | true =>
    rw [visit, if_pos hwaits]
    trivial
  | false =>
    rw [visit_eq hwaits]
    exact .bind h.step_tends h.conclude_tends

lemma visitAll_tends (ids : List RolloutId) :
    (sch.visitAll now ids retries report).Writes Store.Tends := by
  induction ids generalizing retries report with
  | nil => trivial
  | cons id rest ih => exact .bind h.visit_tends fun _ => ih

/-- **A cycle works on rollouts.** -/
theorem cycle_tends : (sch.cycle now retries).Writes Store.Tends := by
  refine .bind ⟨trivial, fun _ => trivial⟩ fun found => ?_
  cases found with
  | ok rollouts => exact h.visitAll_tends _
  | error e => trivial

end Stored

end Scheduler

/-! ## Operators -/

namespace Operator

variable {m : Operator} {id : RolloutId}

lemma WorksUnderLease.tends {op : Operation RolloutError α} (h : m.WorksUnderLease id op) :
    op.Tends := by
  obtain ⟨work, rfl, hwork⟩ := h
  refine .bind .now fun now => .bind (.mapError (.acquireLease m.fence _ _ _ _)) fun grant => ?_
  cases grant with
  | held l => exact .throw _
  | granted l =>
    refine .bind (.attempt (.bind requireRollout_tends fun r => ?_)) fun result =>
      .bind (.attempt (.releaseLease m.fence _ _ _)) fun _ =>
        .ofExcept result
    exact Program.Writes.mono (hwork _ r).keeps fun _ _ h => .progress h

lemma create_tends {resolver : Resolver} (hresolver : resolver.Reads) (n : NewRollout) :
    (m.create resolver n).Tends := by
  refine .bind (.ofExcept _) fun _ => .bind (.mapError (.read _)) fun found => ?_
  cases hfound : found.isSome with
  | true => exact .throw _
  | false =>
    refine .bind (.of_reads (hresolver _)) fun targets => .bind (.ofExcept _) fun plans => ?_
    refine .bind .nowSeconds fun now => .bind (.ofExcept _) fun r => ?_
    exact .bind (.mapError (.keeps m.fence (.createRollout _ _))) fun _ => .pure r

end Operator

/-! ## Cleanup -/

namespace Cleanup

variable {grace now : Nat}

/-- What the writes of an attempt change is of this kind. -/
def Attempt.Writes (R : Store → Store → Prop) (t : Attempt α) : Prop :=
  ∀ report, ((ExceptT.run t).run report).Writes R

namespace Attempt.Writes

variable {R : Store → Store → Prop}

lemma pure (a : α) : Attempt.Writes R (pure a) := fun _ => trivial

lemma count (f : CleanupReport → CleanupReport) : Attempt.Writes R (count f) := fun _ => trivial

lemma ofExcept (r : Except SchedulerError α) : Attempt.Writes R (ExceptT.mk (Pure.pure r)) :=
  fun _ => trivial

lemma bind {t : Attempt α} {f : α → Attempt β} (h : Attempt.Writes R t)
    (hf : ∀ a, Attempt.Writes R (f a)) : Attempt.Writes R (t >>= f) := fun report =>
  Program.Writes.bind (h report) fun x => match x with
    | (.ok a, report') => hf a report'
    | (.error _, _) => trivial

lemma lift {op : Operation StoreError α} (h : Operation.Writes R op) :
    Attempt.Writes R (ExceptT.mk (StateT.lift (Operation.mapError .store op))) := fun _ =>
  Program.Writes.bind (Operation.Writes.mapError h) fun _ => trivial

lemma read (view : Store → Except StoreError α) : Attempt.Writes R (Cleanup.read view) :=
  lift (.read view)

lemma commit {t : Transaction α} (h : ∀ s a s', t s = .ok (a, s') → R s s') :
    Attempt.Writes R (Cleanup.commit t) := lift (.commit none h)

end Attempt.Writes

lemma reclaimActions_clears (actions : List Action) :
    Attempt.Writes Store.Clears (reclaimActions grace now actions) := by
  induction actions with
  | nil => exact .pure _
  | cons a rest ih =>
    rw [reclaimActions]
    split
    · exact .bind (.count _) fun _ => .bind ih fun _ => .pure _
    · refine .bind (.commit fun s b s' h => .progress (KeepsBeside.deleteAction _ s b s' h))
        fun b => ?_
      cases b with
      | true => exact .bind (.count _) fun _ => ih
      | false => exact ih

lemma reclaimGroups_clears (groups : List RolloutGroup) :
    Attempt.Writes Store.Clears (reclaimGroups grace now groups) := by
  induction groups with
  | nil => exact .pure _
  | cons g rest ih =>
    rw [reclaimGroups]
    refine .bind (.read _) fun actions => .bind (reclaimActions_clears actions) fun kept => ?_
    split
    · exact ih
    · refine .bind (.commit fun s b s' h => .progress (KeepsBeside.deleteGroup _ s b s' h))
        fun b => ?_
      cases b with
      | true => exact .bind (.count _) fun _ => ih
      | false => exact ih

lemma reclaim_clears (r : Rollout) :
    Attempt.Writes Store.Clears (reclaim grace now r) := by
  refine .bind (.read _) fun groups => .bind (reclaimGroups_clears groups) fun _ =>
    .bind (.read _) fun left => ?_
  split
  · exact .bind (.ofExcept _) fun gone => .bind (.commit fun _ _ _ h => .purged h) fun _ => .count _
  · exact .pure _

lemma reclaimAll_clears (rollouts : List Rollout) (report : CleanupReport) :
    ((reclaimAll grace now rollouts).run report).Writes Store.Clears := by
  induction rollouts generalizing report with
  | nil => trivial
  | cons r rest ih =>
    refine Program.Writes.bind (reclaim_clears r report) fun x => ?_
    match x with
    | (.ok (), report') => exact ih report'
    | (.error e, report') => exact ih _

/-- **A cleanup pass leaves what is beside rollouts, groups and actions alone** but for the leases of
the rollouts that are gone. -/
theorem pass_clears : (pass grace now).Writes Store.Clears := by
  refine .bind ⟨trivial, fun _ => trivial⟩ fun found => ?_
  cases found with
  | ok rollouts => exact .bind (reclaimAll_clears _ _) fun _ => trivial
  | error e => trivial

end Cleanup

/-! ## Activities -/

namespace Activity

/-- Schedulers keep their leases in the store, and resolvers only look. -/
def Stored : Activity → Prop
  | create _ resolver _ => resolver.Reads
  | cycle sch _ _ => sch.Stored
  | refresh live _ _ _ => live.resolver.Reads
  | _ => True

lemma ofOperation_writes {R : Store → Store → Prop} {op : Operation ε α}
    (h : Operation.Writes R op) : (ofOperation op).Writes R :=
  Program.Writes.bind h fun _ => trivial

/-- What registers devices and saved filters or removes them, and what it does. -/
inductive Registers : Activity → (Store → Store) → Prop
  | putTarget (t : Target) :
      Registers (.putTarget t) fun s => { s with targets := Table.put s.targets t.id t }
  | deleteTarget (id : TargetId) :
      Registers (.deleteTarget id) fun s => { s with targets := s.targets.erase id }
  | putFilter (f : SavedFilter) :
      Registers (.putFilter f) fun s => { s with filters := Table.put s.filters f.id f }
  | deleteFilter (id : String) :
      Registers (.deleteFilter id) fun s => { s with filters := s.filters.erase id }

lemma Registers.writes {a : Activity} {f : Store → Store} (h : a.Registers f) :
    a.program.Writes fun s s' => s' = f s := by
  cases h with
  | putTarget | deleteTarget | putFilter | deleteFilter =>
    refine ofOperation_writes (.commit none fun s a s' hrun => ?_)
    exact (Prod.mk.inj (Except.ok.inj hrun)).2.symm

/-- **What the writes of an activity do.** -/
theorem writes (a : Activity) (h : a.Stored) :
    a.program.Writes Store.Tends ∨
      (∃ grace now, a = .cleanup grace now) ∧ a.program.Writes Store.Clears ∨
      ∃ f, a.Registers f := by
  cases a with
  | create m resolver n => exact .inl (ofOperation_writes (Operator.create_tends h n))
  | approve m id | deny m id | start m id | pause m id | delete m id =>
    exact .inl (ofOperation_writes (Operator.command_works _).tends)
  | resume m id => exact .inl (ofOperation_writes Operator.resume_works.tends)
  | stop m id => exact .inl (ofOperation_writes Operator.stop_works.tends)
  | triggerNext m id => exact .inl (ofOperation_writes Operator.triggerNext_works.tends)
  | cycle sch now retries => exact .inl (.bind h.cycle_tends fun _ => trivial)
  | advance fence id now => exact .inl (ofOperation_writes advance_tends)
  | refresh live fence id now => exact .inl (ofOperation_writes (Live.refresh_tends h))
  | report fence r => exact .inl (ofOperation_writes (.mapError (.keeps fence (.report _ _ _))))
  | cleanup grace now =>
    exact .inr (.inl ⟨⟨grace, now, rfl⟩, .bind Cleanup.pass_clears fun _ => trivial⟩)
  | putTarget t => exact .inr (.inr ⟨_, .putTarget t⟩)
  | deleteTarget id => exact .inr (.inr ⟨_, .deleteTarget id⟩)
  | putFilter f => exact .inr (.inr ⟨_, .putFilter f⟩)
  | deleteFilter id => exact .inr (.inr ⟨_, .deleteFilter id⟩)
  | acquireLease k owner now ttl => exact .inl (ofOperation_writes (.acquireLease none _ _ _ _))
  | renewLease k owner token now ttl =>
    exact .inl (ofOperation_writes (.renewLease none _ _ _ _ _))
  | releaseLease k owner token => exact .inl (ofOperation_writes (.releaseLease none _ _ _))

/-- **What an activity does to the lease of a key.**  A cleanup pass leaves it alone or removes it;
whatever else is done with a store leaves it alone, grants it, extends it or gives it up. -/
theorem handles (a : Activity) (key : String) (h : a.Stored) :
    a.program.Writes (Store.Handles key) ∨
      (∃ grace now, a = .cleanup grace now) ∧ a.program.Writes (Store.Reclaims key) := by
  rcases a.writes h with hwrites | ⟨hcleanup, hwrites⟩ | ⟨f, hregisters⟩
  · exact .inl (hwrites.mono fun _ _ h => h.handles key)
  · exact .inr ⟨hcleanup, hwrites.mono fun _ _ h => h.reclaims key⟩
  · refine .inl (hregisters.writes.mono fun s s' heq => .spared (.of_leases ?_))
    subst heq
    cases hregisters <;> rfl

end Activity

end StagedRollout
