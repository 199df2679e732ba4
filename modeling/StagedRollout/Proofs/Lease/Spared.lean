/-
# Transactions that leave a lease alone

A transaction on rollouts, groups and actions leaves everything beside them as it is: devices, saved
filters and leases (`Transaction.KeepsBeside`).  One on the lease of a key does not touch the lease
of another key.  Only the purge of a rollout removes a lease: the one that guarded the rollout.
-/
import StagedRollout.Proofs.Lease.Transactions

namespace StagedRollout

/-- Devices, saved filters and leases are the same. -/
structure Store.SameBeside (s s' : Store) : Prop where
  targets : s'.targets = s.targets
  filters : s'.filters = s.filters
  leases : s'.leases = s.leases

namespace Store.SameBeside

variable {s s' s'' : Store}

lemma of_eq (h : s' = s) : s.SameBeside s' := h ▸ ⟨rfl, rfl, rfl⟩

lemma trans (h : s.SameBeside s') (h' : s'.SameBeside s'') : s.SameBeside s'' :=
  ⟨h'.targets.trans h.targets, h'.filters.trans h.filters, h'.leases.trans h.leases⟩

end Store.SameBeside

namespace Transaction

open Store

variable {α β : Type} {key : String}

/-- The transaction leaves everything beside rollouts, groups and actions as it is. -/
def KeepsBeside (t : Transaction α) : Prop :=
  ∀ s a s', t s = .ok (a, s') → s.SameBeside s'

namespace KeepsBeside

/-! ## Rules -/

lemma pure (a : α) : KeepsBeside (pure a : Transaction α) := fun _ _ _ h =>
  .of_eq (pure_eq_ok h).2

lemma throw (e : StoreError) : KeepsBeside (throw e : Transaction α) := fun _ _ _ h => nomatch h

lemma bind {t : Transaction α} {f : α → Transaction β} (h : KeepsBeside t)
    (hf : ∀ a, KeepsBeside (f a)) : KeepsBeside (t >>= f) := by
  intro s b s'' hrun
  obtain ⟨a, s', ht, hrest⟩ := bind_eq_ok hrun
  exact (h s a s' ht).trans (hf a s' b s'' hrest)

lemma get : KeepsBeside (get : Transaction Store) := by
  intro s b s' h
  exact .of_eq (Prod.mk.inj (Except.ok.inj h)).2.symm

lemma ofExcept (r : Except StoreError α) : KeepsBeside (liftM r : Transaction α) := by
  cases r with
  | ok a => exact pure a
  | error e => exact fun _ _ _ h => nomatch h

lemma modify {f : Store → Store} (h : ∀ s, SameBeside s (f s)) :
    KeepsBeside (modify f : Transaction Unit) := by
  intro s b s' hrun
  rw [modify_eq_ok hrun]
  exact h s

lemma read (table : Store → Table α) (k : String) : KeepsBeside (read table k) :=
  fun _ _ _ h => .of_eq (read_eq_ok h).1

lemma require (table : Store → Table α) (kind : RowKind) (k : String) :
    KeepsBeside (require table kind k) := by
  refine (read table k).bind fun found => ?_
  cases found with
  | some a => exact pure a
  | none => exact throw _

/-! ## Rows -/

lemma putRollout (r : Rollout) : KeepsBeside (putRollout r) := modify fun _ => ⟨rfl, rfl, rfl⟩

lemma writeGroup (g : RolloutGroup) : KeepsBeside (writeGroup g) := modify fun _ => ⟨rfl, rfl, rfl⟩

lemma writeAction (a : Action) : KeepsBeside (writeAction a) := modify fun _ => ⟨rfl, rfl, rfl⟩

lemma putGroup (g : RolloutGroup) : KeepsBeside (putGroup g) :=
  (read _ _).bind fun _ => writeGroup _

lemma putGroups (groups : List RolloutGroup) : KeepsBeside (putGroups groups) := by
  induction groups with
  | nil => exact pure ()
  | cons g rest ih => exact (putGroup g).bind fun _ => ih

lemma putRolloutWithGroups (r : Rollout) (groups : List RolloutGroup) :
    KeepsBeside (putRolloutWithGroups r groups) :=
  (putRollout r).bind fun _ => putGroups groups

lemma createRollout (r : Rollout) (groups : List RolloutGroup) :
    KeepsBeside (createRollout r groups) := by
  refine get.bind fun s => ?_
  dsimp only
  split
  · exact (throw _).bind fun _ => (putRollout r).bind fun _ => modify fun _ => ⟨rfl, rfl, rfl⟩
  · exact (putRollout r).bind fun _ => modify fun _ => ⟨rfl, rfl, rfl⟩

lemma deleteGroup (id : GroupId) : KeepsBeside (deleteGroup id) := by
  intro s a s' h
  obtain ⟨-, rfl⟩ := Prod.mk.inj (Except.ok.inj h)
  exact ⟨rfl, rfl, rfl⟩

/-! ## Members and actions -/

lemma appendTargets (id : GroupId) (targets : List TargetId) :
    KeepsBeside (appendTargets id targets) :=
  (require _ _ _).bind fun _ => (require _ _ _).bind fun _ =>
    (writeGroup _).bind fun _ => (putRollout _).bind fun _ => pure _

lemma issueEach (actions : List Action) (counts : StatusCounts) :
    KeepsBeside (issueEach actions counts) := by
  induction actions generalizing counts with
  | nil => exact pure _
  | cons a rest ih =>
    refine get.bind fun s => ?_
    dsimp only
    split
    · exact ih counts
    · exact (writeAction a).bind fun _ => (ih _).bind fun _ => pure _

lemma issueActions (id : GroupId) (actions : List Action) (now : Nat) :
    KeepsBeside (issueActions id actions now) :=
  (require _ _ _).bind fun _ => (issueEach _ _).bind fun _ => (writeGroup _).bind fun _ => pure _

lemma recount (id : GroupId) (f : StatusCounts → StatusCounts) :
    KeepsBeside (recount id f) := by
  refine (read _ _).bind fun found => ?_
  cases found with
  | some g => exact writeGroup _
  | none => exact pure ()

lemma setStatus (a : Action) (status : ActionStatus) (now : Nat) :
    KeepsBeside (setStatus a status now) :=
  (writeAction _).bind fun _ => (recount _ _).bind fun _ => pure _

lemma report (id : ActionId) (status : ActionStatus) (now : Nat) :
    KeepsBeside (report id status now) := by
  refine (read _ _).bind fun found => ?_
  cases found with
  | none => exact pure _
  | some a =>
    dsimp only
    split
    · exact pure _
    · split
      · exact pure _
      · exact (setStatus a status now).bind fun _ => pure _

lemma cancelEach (now : Nat) (actions : List Action) :
    KeepsBeside (cancelEach now actions) := by
  induction actions with
  | nil => exact pure ()
  | cons a rest ih => exact (setStatus a .canceling now).bind fun _ => ih

lemma stopRollout (r : Rollout) (now : Nat) : KeepsBeside (stopRollout r now) :=
  (putRollout r).bind fun _ => get.bind fun _ => (ofExcept _).bind fun _ =>
    (cancelEach now _).bind fun _ => pure _

lemma deleteAction (id : ActionId) : KeepsBeside (deleteAction id) := by
  refine (read _ _).bind fun found => ?_
  cases found with
  | none => exact pure _
  | some a =>
    refine bind (modify ?_) fun _ => (recount _ _).bind fun _ => pure true
    exact fun _ => ⟨rfl, rfl, rfl⟩

end KeepsBeside

/-! ## Leases -/

/-- The transaction leaves the row under a key of the lease table as it is. -/
def SparesLease (key : String) (t : Transaction α) : Prop :=
  ∀ s a s', t s = .ok (a, s') → s'.leases.find? key = s.leases.find? key

lemma SparesLease.purgeRollout {r : Rollout} (h : key ≠ Lease.rolloutKey r.id) :
    SparesLease key (purgeRollout r) := by
  intro s a s' hrun
  obtain ⟨-, rfl⟩ := Prod.mk.inj (Except.ok.inj hrun)
  exact (OrderedMap.find?_erase _ _ _).trans (if_neg h)

end Transaction

end StagedRollout
