/-
# Changes of actions

A new status of an action and the removal of an action come with the change of one counter of its
group, so a sound store stays sound (`Sound.withStatus`, `Sound.dropped`).  A group may be removed
once its rollout is deleted and it has no actions left.
-/
import StagedRollout.Proofs.Progression.Verdict
import StagedRollout.Proofs.Store.Sound
import StagedRollout.Store.Membership

namespace StagedRollout

open RolloutGroup

namespace Store

variable {s : Store}

/-! ## One group in the place of another -/

lemma replacedBy_singleton (g x : RolloutGroup) :
    replacedBy [g] x = if g.id = x.id then g else x := by
  by_cases h : g.id = x.id <;> simp [replacedBy, h]

/-- A group of a rollout is the one that is stored under its id. -/
lemma Keyed.eq_of_mem_groupsOf {id : RolloutId} {g x : RolloutGroup} (h : Keyed s)
    (hx : x ∈ s.groupsOf id) (hg : s.group? x.id = some g) : x = g :=
  Option.some.inj ((h.mem_groupsOf.1 hx).1.symm.trans hg)

/-- Behind the write of one group, every group of a rollout is that group or what it was. -/
lemma Keyed.replacedBy_eq {id : RolloutId} {g g' x : RolloutGroup} (h : Keyed s)
    (hx : x ∈ s.groupsOf id) (hg : s.group? g'.id = some g) :
    (x = g ∧ replacedBy [g'] x = g') ∨ (x ≠ g ∧ replacedBy [g'] x = x) := by
  rw [replacedBy_singleton]
  by_cases hid : g'.id = x.id
  · exact .inl ⟨h.eq_of_mem_groupsOf hx (hid ▸ hg), if_pos hid⟩
  · refine .inr ⟨fun heq => hid ?_, if_neg hid⟩
    rw [heq]
    exact (h.group_key hg).1.symm

/-! ## Statuses -/

/-- The store with another status of an action, counted by its group. -/
def withStatus (s : Store) (a : Action) (status : ActionStatus) (now : Nat) : Store :=
  let s' := s.withAction { a with status := status, lastStatusAt := now }
  match s.group? a.groupId with
  | some g => s'.withGroup { g with counts := g.counts.move a.status status }
  | none => s'

lemma withStatus_eq {a : Action} {g : RolloutGroup} (hg : s.group? a.groupId = some g)
    (status : ActionStatus) (now : Nat) :
    s.withStatus a status now =
      (s.withAction { a with status := status, lastStatusAt := now }).withGroup
        { g with counts := g.counts.move a.status status } := by
  simp only [withStatus, hg]

/-- A group that has an action is no group that waits. -/
lemma Sound.state_ne_scheduled {key : ActionId} {a : Action} {g : RolloutGroup} {r : Rollout}
    (h : Sound s) (ha : s.action? key = some a) (hg : s.group? a.groupId = some g)
    (hr : s.rollout? g.rolloutId = some r) (hd : r.deleted = false) : g.state ≠ .scheduled := by
  intro hs
  have hid := (h.group_key hg).1
  have hmem : g ∈ s.groupsOf g.rolloutId := h.mem_groupsOf.2 ⟨hid ▸ hg, rfl⟩
  -- the action is counted, but a group that waits counts nothing
  have hzero := (((h.agrees hr).staged hd).untouched_of_scheduled hmem hs).2.1
  have hcount := h.counted hg a.status
  have hle := s.share_le_tally ha a.groupId a.status
  rw [hzero] at hcount
  rw [← hcount, share, if_pos ⟨rfl, rfl⟩] at hle
  cases hst : a.status <;> simp [hst, StatusCounts.zero, StatusCounts.get] at hle

/-- A group with other counters takes the place of one that has an action. -/
lemma Sound.agrees_of_counts {key : ActionId} {a : Action} {g : RolloutGroup} {r : Rollout}
    (h : Sound s) (ha : s.action? key = some a) (hg : s.group? a.groupId = some g)
    (hr : s.rollout? g.rolloutId = some r) (counts : StatusCounts) :
    r.AgreesWith
      ((s.groupsOf g.rolloutId).map (replacedBy [{ g with counts := counts }])) := by
  refine (h.agrees hr).map fun hd x hx => ?_
  have hg' : s.group? ({ g with counts := counts } : RolloutGroup).id = some g :=
    (h.group_key hg).1 ▸ hg
  rcases h.toKeyed.replacedBy_eq hx hg' with ⟨rfl, heq⟩ | ⟨-, heq⟩
  · rw [heq]
    exact ⟨⟨rfl, rfl, rfl, rfl⟩, rfl, rfl, rfl,
      fun hs => absurd hs (h.state_ne_scheduled ha hg hr hd)⟩
  · rw [heq]
    exact ⟨SameRoster.refl x, SameStage.refl x⟩

/-- **A stored action may get any status.** -/
theorem Sound.withStatus {a : Action} (h : Sound s) (ha : s.action? a.id = some a)
    (status : ActionStatus) (now : Nat) : Sound (s.withStatus a status now) := by
  obtain ⟨g, hg, hrollout, hmem⟩ := h.action_group ha
  obtain ⟨r, hr⟩ := h.group_rollout hg
  obtain ⟨hgid, -⟩ := h.group_key hg
  rw [withStatus_eq hg]
  have hg' : s.group? g.id = some g := by
    rw [hgid]
    exact hg
  have hold : s.action? ({ a with status := status, lastStatusAt := now } : Action).id = some a := ha
  refine h.recount (h.toKeyed.withAction (h.action_key ha).2 hg hrollout hmem) rfl rfl
    hg' hr ⟨rfl, rfl, rfl, rfl⟩ rfl (fun st => ?_) (fun id hne st => ?_)
    (h.agrees_of_counts ha hg hr _)
  -- in its own group the action goes over from one counter to the other
  · have htally := s.tally_withAction_of_some hold a.groupId st
    have hle := s.share_le_tally ha a.groupId st
    have hcount := h.counted hg st
    change (g.counts.move a.status status).get st = (s.withAction _).tally g.id st
    rw [StatusCounts.get_move, hcount, hgid]
    simp only [share, true_and] at htally hle
    by_cases hsame : a.status = status
    · simp only [hsame, if_true] at htally ⊢
      omega
    · simp only [hsame, if_false, eq_comm (a := st)]
      omega
  -- no other group counts the action
  · have htally := s.tally_withAction_of_some hold id st
    have hother : a.groupId ≠ id := fun heq => hne (heq ▸ hgid.symm)
    simpa [share, hother] using htally

@[simp] lemma rollouts_withStatus (s : Store) (a : Action) (status : ActionStatus) (now : Nat) :
    (s.withStatus a status now).rollouts = s.rollouts := by
  unfold withStatus
  cases s.group? a.groupId <;> rfl

@[simp] lemma action?_withStatus (s : Store) (a : Action) (status : ActionStatus) (now : Nat)
    (id : ActionId) : (s.withStatus a status now).action? id =
      if id = a.id then some { a with status := status, lastStatusAt := now }
      else s.action? id := by
  unfold withStatus
  cases s.group? a.groupId <;> simp

/-- A new status of one action leaves the others as they are. -/
lemma stored_withStatus {a : Action} {actions : List Action}
    (hn : ((a :: actions).map (·.id)).Nodup)
    (hstored : ∀ x ∈ a :: actions, s.action? x.id = some x) (status : ActionStatus) (now : Nat) :
    ∀ x ∈ actions, (s.withStatus a status now).action? x.id = some x := by
  intro x hx
  rw [action?_withStatus, if_neg ((nodup_keys_cons hn).1 x hx)]
  exact hstored x (List.mem_cons_of_mem _ hx)

/-- The store with actions that devices are asked to cancel. -/
def cancelled (s : Store) (actions : List Action) (now : Nat) : Store :=
  actions.foldl (fun s a => s.withStatus a .canceling now) s

lemma Sound.cancelled {actions : List Action} {now : Nat} (h : Sound s)
    (hn : (actions.map (·.id)).Nodup) (hstored : ∀ a ∈ actions, s.action? a.id = some a) :
    Sound (s.cancelled actions now) := by
  induction actions generalizing s with
  | nil => exact h
  | cons a actions ih =>
    have hfirst := h.withStatus (hstored a List.mem_cons_self) .canceling now
    exact ih hfirst (nodup_keys_cons hn).2 (stored_withStatus hn hstored .canceling now)

/-! ## Removals -/

/-- The store without an action, which its group does not count any more. -/
def dropped (s : Store) (a : Action) : Store :=
  let s' := s.withoutAction a.id
  match s.group? a.groupId with
  | some g => s'.withGroup { g with counts := g.counts.decrement a.status }
  | none => s'

lemma dropped_eq {a : Action} {g : RolloutGroup} (hg : s.group? a.groupId = some g) :
    s.dropped a =
      (s.withoutAction a.id).withGroup { g with counts := g.counts.decrement a.status } := by
  simp only [dropped, hg]

@[simp] lemma rollouts_dropped (s : Store) (a : Action) : (s.dropped a).rollouts = s.rollouts := by
  unfold dropped
  cases s.group? a.groupId <;> rfl

@[simp] lemma action?_dropped (s : Store) (a : Action) (id : ActionId) :
    (s.dropped a).action? id = if id = a.id then none else s.action? id := by
  unfold dropped
  cases s.group? a.groupId <;> simp

lemma action?_dropped_eq_some {a b : Action} {id : ActionId} :
    (s.dropped a).action? id = some b ↔ id ≠ a.id ∧ s.action? id = some b := by
  rw [action?_dropped, Option.ite_none_left_eq_some]

/-- Nothing but counters changes in groups. -/
lemma Keyed.group?_dropped_cases {a : Action} {id : GroupId} {g : RolloutGroup} (h : Keyed s)
    (hg : (s.dropped a).group? id = some g) :
    ∃ old, s.group? id = some old ∧ g.rolloutId = old.rolloutId := by
  unfold dropped at hg
  cases hold : s.group? a.groupId with
  | none =>
    rw [hold] at hg
    exact ⟨g, hg, rfl⟩
  | some old =>
    simp only [hold, group?_withGroup] at hg
    split at hg
    · rename_i hid
      obtain rfl := Option.some.inj hg
      refine ⟨old, ?_, rfl⟩
      rw [hid, (h.group_key hold).1]
      exact hold
    · exact ⟨g, hg, rfl⟩

/-- **A stored action may go.** -/
theorem Sound.dropped {a : Action} (h : Sound s) (ha : s.action? a.id = some a) :
    Sound (s.dropped a) := by
  obtain ⟨g, hg, -⟩ := h.action_group ha
  obtain ⟨r, hr⟩ := h.group_rollout hg
  obtain ⟨hgid, -⟩ := h.group_key hg
  have hg' : s.group? g.id = some g := by
    rw [hgid]
    exact hg
  rw [dropped_eq hg]
  refine h.recount (h.toKeyed.withoutAction a.id) rfl rfl hg' hr ⟨rfl, rfl, rfl, rfl⟩ rfl
    (fun st => ?_) (fun id hne st => ?_) (h.agrees_of_counts ha hg hr _)
  · have htally := s.tally_withoutAction ha a.groupId st
    have hcount := h.counted hg st
    change (g.counts.decrement a.status).get st = (s.withoutAction _).tally g.id st
    rw [StatusCounts.get_decrement, hcount, hgid]
    simp only [share, true_and] at htally
    simp only [eq_comm (a := st)]
    omega
  · have htally := s.tally_withoutAction ha id st
    have hother : a.groupId ≠ id := fun heq => hne (heq ▸ hgid.symm)
    simpa [share, hother] using htally

/-- The groups that a rollout has left. -/
lemma Keyed.groupsOf_withoutGroup {key : GroupId} (h : Keyed s)
    (hnone : ∀ k a, s.action? k = some a → a.groupId ≠ key) (id : RolloutId) :
    (s.withoutGroup key).groupsOf id = (s.groupsOf id).filter fun g => g.id != key := by
  refine (h.withoutGroup hnone).groupsOf_eq ((h.groupsOf_ascending id).filter _) fun g => ?_
  rw [List.mem_filter, h.mem_groupsOf, group?_withoutGroup, bne_iff_ne]
  by_cases hg : g.id = key <;> simp [hg]

/-- **A group without actions may go, if its rollout is deleted.** -/
theorem Sound.withoutGroup {g : RolloutGroup} {r : Rollout} (h : Sound s)
    (hg : s.group? g.id = some g) (hr : s.rollout? g.rolloutId = some r)
    (hd : r.deleted = true) (hnone : ∀ k a, s.action? k = some a → a.groupId ≠ g.id) :
    Sound (s.withoutGroup g.id) := by
  refine { h.toKeyed.withoutGroup hnone with counted := ?_, agrees := ?_ }
  · intro id x hx status
    exact h.counted (group?_withoutGroup_eq_some.1 hx).2 status
  · intro id x hx
    rw [h.toKeyed.groupsOf_withoutGroup hnone]
    by_cases hid : id = g.rolloutId
    · subst hid
      obtain rfl := Option.some.inj (hr.symm.trans hx)
      exact (h.agrees hx).of_deleted hd
    · have hsame : ((s.groupsOf id).filter fun y => y.id != g.id) = s.groupsOf id := by
        refine List.filter_eq_self.2 fun y hy => bne_iff_ne.2 fun heq => hid ?_
        obtain ⟨hys, hyid⟩ := h.mem_groupsOf.1 hy
        rw [heq] at hys
        obtain rfl := Option.some.inj (hg.symm.trans hys)
        exact hyid.symm
      rw [hsame]
      exact h.agrees hx

end Store

end StagedRollout
