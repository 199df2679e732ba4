/-
# What transactions come to

A transaction on a store whose rows can be decoded comes to one of the changes that are known as
functions on stores, or it is abandoned.  Each lemma states both: the value that the transaction
ends with and the store behind it.
-/
import StagedRollout.Proofs.Progression.Steps

namespace StagedRollout.Transaction

open Store

variable {α β : Type} {s s' : Store}

/-! ## Plumbing -/

lemma bind_run {t : Transaction α} {a : α} (h : t s = .ok (a, s')) (f : α → Transaction β) :
    (t >>= f) s = f a s' := by
  change (t s >>= fun p => f p.1 p.2) = f a s'
  rw [h]
  rfl

lemma bind_error {t : Transaction α} {e : StoreError} (h : t s = .error e)
    (f : α → Transaction β) : (t >>= f) s = .error e := by
  change (t s >>= fun p => f p.1 p.2) = .error e
  rw [h]
  rfl

lemma get_run (s : Store) : (get : Transaction Store) s = .ok (s, s) := rfl

lemma read_run {table : Store → Table α} (h : Table.Undamaged (table s)) (key : String) :
    read table key s = .ok (Table.intact? (table s) key, s) := by
  rw [read, bind_run (get_run s), Table.read_of_undamaged h]
  rfl

lemma require_run {table : Store → Table α} (h : Table.Undamaged (table s)) {kind : RowKind}
    {key : String} {a : α} (ha : Table.intact? (table s) key = some a) :
    require table kind key s = .ok (a, s) := by
  rw [require, bind_run (read_run h key), ha]
  rfl

lemma read_eq_ok {table : Store → Table α} {key : String} {found : Option α}
    (h : Transaction.read table key s = .ok (found, s')) :
    s' = s ∧ Table.read (table s) key = .ok found := by
  rw [Transaction.read, bind_run (get_run s)] at h
  cases hr : Table.read (table s) key with
  | error e =>
    rw [hr] at h
    cases h
  | ok v =>
    rw [hr] at h
    obtain ⟨rfl, rfl⟩ := Prod.mk.inj (Except.ok.inj h)
    exact ⟨rfl, rfl⟩

lemma read_run_of {table : Store → Table α} {key : String} {found : Option α}
    (h : Table.read (table s) key = .ok found) :
    Transaction.read table key s = .ok (found, s) := by
  rw [Transaction.read, bind_run (get_run s), h]
  rfl

/-- A transaction that goes on behind another one has both parts done. -/
lemma bind_eq_ok {t : Transaction α} {f : α → Transaction β} {b : β} {s'' : Store}
    (h : (t >>= f) s = .ok (b, s'')) : ∃ a s', t s = .ok (a, s') ∧ f a s' = .ok (b, s'') := by
  cases ht : t s with
  | error e =>
    rw [bind_error ht] at h
    cases h
  | ok p =>
    rw [bind_run ht] at h
    exact ⟨p.1, p.2, rfl, h⟩

lemma pure_eq_ok {a b : α} (h : (pure a : Transaction α) s = .ok (b, s')) : b = a ∧ s' = s := by
  obtain ⟨rfl, rfl⟩ := Prod.mk.inj (Except.ok.inj h)
  exact ⟨rfl, rfl⟩

lemma modify_eq_ok {f : Store → Store} {u : Unit}
    (h : (modify f : Transaction Unit) s = .ok (u, s')) : s' = f s :=
  (Prod.mk.inj (Except.ok.inj h)).2.symm

lemma require_eq_ok {table : Store → Table α} {kind : RowKind} {key : String} {a : α}
    (h : require table kind key s = .ok (a, s')) :
    s' = s ∧ Table.intact? (table s) key = some a := by
  obtain ⟨found, s₁, hread, hrest⟩ := bind_eq_ok h
  obtain ⟨rfl, hfound⟩ := read_eq_ok hread
  cases found with
  | none => cases hrest
  | some b =>
    obtain ⟨rfl, rfl⟩ := pure_eq_ok hrest
    exact ⟨rfl, Table.read_eq_some_iff.1 hfound⟩

lemma putRollout_run (r : Rollout) (s : Store) : putRollout r s = .ok ((), s.withRollout r) := rfl

lemma writeAction_run (a : Action) (s : Store) : writeAction a s = .ok ((), s.withAction a) := rfl

/-! ## Groups -/

lemma putGroup_run (h : Keyed s) {g old : RolloutGroup} (hold : s.group? g.id = some old)
    (hcounts : g.counts = old.counts) (htargets : g.targets = old.targets)
    (hcount : g.targetCount = old.targetCount) : putGroup g s = .ok ((), s.withGroup g) := by
  rw [putGroup, bind_run (read_run h.groups_intact g.id)]
  have hsame : withStored (s.group? g.id) g = g := by
    rw [hold, withStored, ← hcounts, ← htargets, ← hcount]
  exact congrArg (fun g' => Except.ok ((), s.withGroup g')) hsame

/-- Groups that keep their counters and members are written as they are. -/
lemma putGroups_run {groups : List RolloutGroup} (h : Keyed s) (hr : Replaces s groups)
    (hsame : ∀ g ∈ groups, ∀ old, s.group? g.id = some old →
      g.counts = old.counts ∧ g.targets = old.targets ∧ g.targetCount = old.targetCount) :
    putGroups groups s = .ok ((), s.withGroups groups) := by
  induction groups generalizing s with
  | nil => rfl
  | cons g groups ih =>
    obtain ⟨hne, htail⟩ := nodup_keys_cons hr.nodup
    obtain ⟨old, hold, hrest⟩ := hr.stored g List.mem_cons_self
    obtain ⟨hcounts, htargets, hcount⟩ := hsame g List.mem_cons_self old hold
    have hone : Replaces s [g] :=
      .singleton hold hrest.1 hrest.2.1 fun t ht => hrest.2.2 t ht
    have hother : ∀ x ∈ groups, (s.withGroup g).group? x.id = s.group? x.id := by
      intro x hx
      rw [group?_withGroup, if_neg (hne x hx)]
    rw [putGroups, bind_run (putGroup_run h hold hcounts htargets hcount)]
    refine ih (h.withGroups hone) ⟨htail, fun x hx => ?_⟩ fun x hx old' hold' => ?_
    · obtain ⟨oldx, hx', hrestx⟩ := hr.stored x (List.mem_cons_of_mem _ hx)
      exact ⟨oldx, (hother x hx).trans hx', hrestx⟩
    · exact hsame x (List.mem_cons_of_mem _ hx) old' ((hother x hx).symm.trans hold')

lemma putRolloutWithGroups_run {r : Rollout} {groups : List RolloutGroup} (h : Keyed s)
    (hname : NewRollout.isName r.id = true) (hr : Replaces s groups)
    (hsame : ∀ g ∈ groups, ∀ old, s.group? g.id = some old →
      g.counts = old.counts ∧ g.targets = old.targets ∧ g.targetCount = old.targetCount) :
    putRolloutWithGroups r groups s = .ok ((), s.withProgress r groups) := by
  rw [putRolloutWithGroups, bind_run (putRollout_run r s)]
  exact putGroups_run (h.withRollout hname) ⟨hr.nodup, hr.stored⟩ hsame

/-! ## Statuses -/

lemma recount_run (h : Table.Undamaged s.groups) (id : GroupId) (f : StatusCounts → StatusCounts) :
    recount id f s = .ok ((), match s.group? id with
      | some g => s.withGroup { g with counts := f g.counts }
      | none => s) := by
  rw [recount, bind_run (read_run h id)]
  change (match s.group? id with | some g => _ | none => _ : Transaction Unit) s = _
  cases s.group? id <;> rfl

lemma setStatus_run (h : Keyed s) (a : Action) (status : ActionStatus) (now : Nat) :
    setStatus a status now s =
      .ok ({ a with status := status, lastStatusAt := now }, s.withStatus a status now) := by
  let a' := { a with status := status, lastStatusAt := now }
  have hrun := recount_run (s := s.withAction a') h.groups_intact a.groupId
    fun c => c.move a.status status
  rw [setStatus, bind_run (writeAction_run a' s), bind_run hrun]
  rfl

lemma report_run (h : Keyed s) (id : ActionId) (status : ActionStatus) (now : Nat) :
    report id status now s = .ok (match s.action? id with
      | none => (.unknown, s)
      | some a =>
        if a.status = status then (.unchanged a, s)
        else if a.status.isTerminal then (.rejected a, s)
        else (.applied { a with status := status, lastStatusAt := now } a.status,
          s.withStatus a status now)) := by
  rw [report, bind_run (read_run h.actions_intact id)]
  change (match s.action? id with | none => _ | some a => _ : Transaction ReportOutcome) s = _
  cases s.action? id with
  | none => rfl
  | some a =>
    by_cases hsame : a.status = status
    · simp only [hsame, if_true]
      rfl
    · by_cases hend : a.status.isTerminal = true
      · simp only [hsame, hend, if_true, if_false]
        rfl
      · simp only [hsame, hend, if_false, Bool.false_eq_true]
        rw [bind_run (setStatus_run h a status now)]
        rfl

lemma cancelEach_run {actions : List Action} {now : Nat} (h : Sound s)
    (hn : (actions.map (·.id)).Nodup) (hstored : ∀ a ∈ actions, s.action? a.id = some a) :
    cancelEach now actions s = .ok ((), s.cancelled actions now) := by
  induction actions generalizing s with
  | nil => rfl
  | cons a actions ih =>
    have hfirst := h.withStatus (hstored a List.mem_cons_self) .canceling now
    rw [cancelEach, bind_run (setStatus_run h.toKeyed a .canceling now)]
    exact ih hfirst (nodup_keys_cons hn).2 (stored_withStatus hn hstored .canceling now)

lemma deleteAction_run (h : Keyed s) (id : ActionId) :
    deleteAction id s = .ok (match s.action? id with
      | none => (false, s)
      | some a => (true, s.dropped a)) := by
  rw [deleteAction, bind_run (read_run h.actions_intact id)]
  change (match s.action? id with | none => _ | some a => _ : Transaction Bool) s = _
  cases ha : s.action? id with
  | none => rfl
  | some a =>
    have hid := (h.action_key ha).1
    have hrun := recount_run (s := s.withoutAction id) h.groups_intact a.groupId
      fun c => c.decrement a.status
    change (recount a.groupId _ >>= fun _ => pure true) (s.withoutAction id) =
      .ok (true, s.dropped a)
    rw [bind_run hrun]
    unfold dropped
    rw [hid]
    rfl

/-- The open actions of a rollout. -/
def openActions (s : Store) (id : RolloutId) : List Action :=
  (s.rolloutActionsOf id).filter fun a => a.status.isOpen

lemma nodup_openActions (h : Keyed s) (id : RolloutId) :
    ((openActions s id).map (·.id)).Nodup :=
  List.pairwise_map.2 (((h.rolloutActionsOf_ascending id).filter _).imp String.ne_of_lt)

lemma stored_of_mem_openActions (h : Keyed s) {id : RolloutId} :
    ∀ a ∈ openActions s id, s.action? a.id = some a :=
  fun _ ha => (h.mem_rolloutActionsOf.1 (List.mem_of_mem_filter ha)).1

lemma isOpen_of_mem_openActions {id : RolloutId} {a : Action} (ha : a ∈ openActions s id) :
    a.status.isOpen = true := (List.mem_filter.1 ha).2

lemma stopRollout_run {r : Rollout} (h : Sound (s.withRollout r)) (now : Nat) :
    stopRollout r now s = .ok ((openActions s r.id).length,
      (s.withRollout r).cancelled (openActions s r.id) now) := by
  have hstored : (s.withRollout r).rollout? r.id = some r := by simp
  have hlist := h.listActions_rollout_eq hstored
  have hcancel : cancelEach now (openActions s r.id) (s.withRollout r) =
      .ok ((), (s.withRollout r).cancelled (openActions s r.id) now) :=
    cancelEach_run h (nodup_openActions h.toKeyed r.id) (stored_of_mem_openActions h.toKeyed)
  have hread : (liftM ((s.withRollout r).listActions r.id) : Transaction (List Action))
      (s.withRollout r) = .ok (rolloutActionsOf (s.withRollout r) r.id, s.withRollout r) := by
    rw [hlist]
    rfl
  rw [stopRollout, bind_run (putRollout_run r s), cancelOpen, bind_run (get_run _)]
  rw [bind_run hread]
  change (cancelEach now (openActions s r.id) >>= fun _ => pure _) (s.withRollout r) = _
  rw [bind_run hcancel]
  rfl

/-! ## Members -/

lemma joinTargets_eq {members added : List TargetId} (hnodup : added.Nodup)
    (hfresh : ∀ t ∈ added, t ∉ members) : joinTargets members added = members ++ added := by
  induction added generalizing members with
  | nil => simp [joinTargets]
  | cons t added ih =>
    obtain ⟨hnot, htail⟩ := List.nodup_cons.1 hnodup
    have hfresh' : ∀ x ∈ added, x ∉ members ++ [t] := by
      intro x hx hmem
      rcases List.mem_append.1 hmem with hmem | hmem
      · exact hfresh x (List.mem_cons_of_mem _ hx) hmem
      · exact hnot (List.mem_singleton.1 hmem ▸ hx)
    rw [joinTargets, if_neg (hfresh t List.mem_cons_self), ih htail hfresh', List.append_assoc]
    rfl

lemma appendTargets_run {g : RolloutGroup} {r : Rollout} {added : List TargetId} (h : Keyed s)
    (hg : s.group? g.id = some g) (hr : s.rollout? g.rolloutId = some r) (hnodup : added.Nodup)
    (hfresh : ∀ t ∈ added, t ∉ g.targets) :
    appendTargets g.id added s =
      .ok (({ r with totalTargets := r.totalTargets + added.length }, g.joined added),
        s.withProgress { r with totalTargets := r.totalTargets + added.length }
          [g.joined added]) := by
  have hlen : (g.targets ++ added).length - g.targets.length = added.length := by simp
  rw [appendTargets, bind_run (require_run h.groups_intact hg),
    bind_run (require_run h.rollouts_intact hr)]
  simp only [joinTargets_eq hnodup hfresh, hlen]
  rfl

/-! ## Creation and removal -/

lemma withGroups_eq (s : Store) (groups : List RolloutGroup) :
    s.withGroups groups =
      { s with groups := groups.foldl (fun t g => Table.put t g.id g) s.groups } := by
  induction groups generalizing s with
  | nil => rfl
  | cons g groups ih => exact ih (s.withGroup g)

lemma createRollout_run (h : Keyed s) (r : Rollout) (groups : List RolloutGroup) :
    createRollout r groups s =
      if (s.rollout? r.id).isSome then .error (.conflict r.id)
      else .ok ((), s.withProgress r groups) := by
  rw [createRollout, bind_run (get_run s), Table.has_eq_isSome h.rollouts_intact, ← rollout?]
  cases hrow : s.rollout? r.id with
  | some old => rfl
  | none =>
    rw [withProgress, withGroups_eq]
    rfl

lemma deleteGroup_run (h : Keyed s) (id : GroupId) :
    deleteGroup id s = .ok ((s.group? id).isSome, s.withoutGroup id) := by
  rw [deleteGroup, bind_run (get_run s), Table.has_eq_isSome h.groups_intact]
  rfl

lemma purgeRollout_run (r : Rollout) (s : Store) :
    ∃ s', purgeRollout r s = .ok ((), s') ∧ SameProgress (s.withRollout r) s' :=
  ⟨_, rfl, rfl, rfl, rfl⟩

end StagedRollout.Transaction
