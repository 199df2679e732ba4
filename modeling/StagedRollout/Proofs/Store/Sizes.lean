/-
# Sizes within a quota

Sizes change only where a rollout is created and where devices join one, and both look at the
quota first; so in runs under one fixed quota no group and no rollout is ever larger than it
allows (`WithinQuota.step`).
-/
import StagedRollout.Proofs.Store.Moves

namespace StagedRollout.Store

open RolloutGroup Progression Transaction

variable {s s' : Store}

/-- No group and no rollout is larger than a quota allows. -/
structure WithinQuota (quota : Quota) (s : Store) : Prop where
  groups : ∀ {id g}, s.group? id = some g → g.targetCount ≤ quota.maxActionsPerGroup
  rollouts : ∀ {id r}, s.rollout? id = some r → r.totalTargets ≤ quota.maxActions

lemma withinQuota_empty (quota : Quota) : WithinQuota quota .empty where
  groups {id g} hg := by simp [Store.empty, group?, Table.intact?] at hg
  rollouts {id r} hr := by simp [Store.empty, rollout?, Table.intact?] at hr

/-- Groups and rollouts of the second store have the sizes that they have in the first one. -/
structure SameSizes (s s' : Store) : Prop where
  groups : ∀ {id g'}, s'.group? id = some g' →
    ∃ g, s.group? id = some g ∧ g'.targetCount = g.targetCount
  rollouts : ∀ {id r'}, s'.rollout? id = some r' →
    ∃ r, s.rollout? id = some r ∧ r'.totalTargets = r.totalTargets

lemma WithinQuota.of_sameSizes {quota : Quota} (h : WithinQuota quota s) (hs : SameSizes s s') :
    WithinQuota quota s' where
  groups hg' := by
    obtain ⟨g, hg, hsize⟩ := hs.groups hg'
    exact hsize ▸ h.groups hg
  rollouts hr' := by
    obtain ⟨r, hr, hsize⟩ := hs.rollouts hr'
    exact hsize ▸ h.rollouts hr

namespace SameSizes

lemma refl (s : Store) : SameSizes s s := ⟨fun hg => ⟨_, hg, rfl⟩, fun hr => ⟨_, hr, rfl⟩⟩

lemma trans {s'' : Store} (h : SameSizes s s') (h' : SameSizes s' s'') : SameSizes s s'' where
  groups hg := by
    obtain ⟨g', hg', hsize'⟩ := h'.groups hg
    obtain ⟨g, hg, hsize⟩ := h.groups hg'
    exact ⟨g, hg, hsize'.trans hsize⟩
  rollouts hr := by
    obtain ⟨r', hr', hsize'⟩ := h'.rollouts hr
    obtain ⟨r, hr, hsize⟩ := h.rollouts hr'
    exact ⟨r, hr, hsize'.trans hsize⟩

lemma withRollout {r r' : Rollout} (hr : s.rollout? r.id = some r) (hrow : r'.id = r.id)
    (htotal : r'.totalTargets = r.totalTargets) : SameSizes s (s.withRollout r') where
  groups hg := ⟨_, hg, rfl⟩
  rollouts hx := by
    rw [rollout?_withRollout] at hx
    split at hx
    · rename_i hid
      obtain rfl := Option.some.inj hx
      exact ⟨r, by rw [hid, hrow]; exact hr, htotal⟩
    · exact ⟨_, hx, rfl⟩

lemma withGroups {groups : List RolloutGroup}
    (hg : ∀ g ∈ groups, ∃ old, s.group? g.id = some old ∧ g.targetCount = old.targetCount) :
    SameSizes s (s.withGroups groups) where
  groups hx := by
    rcases group?_withGroups_cases hx with ⟨hmem, rfl⟩ | hold
    · exact hg _ hmem
    · exact ⟨_, hold, rfl⟩
  rollouts hr := ⟨_, (rollout?_withGroups s groups _).symm.trans hr, rfl⟩

lemma withGroup {g old : RolloutGroup} (hold : s.group? g.id = some old)
    (hsize : g.targetCount = old.targetCount) : SameSizes s (s.withGroup g) := by
  have h : SameSizes s (s.withGroups [g]) := withGroups fun x hx => by
    obtain rfl := List.mem_singleton.1 hx
    exact ⟨old, hold, hsize⟩
  exact h

lemma withProgress {r r' : Rollout} {groups : List RolloutGroup} (hr : s.rollout? r.id = some r)
    (hrow : r'.id = r.id) (htotal : r'.totalTargets = r.totalTargets)
    (hg : ∀ g ∈ groups, ∃ old, s.group? g.id = some old ∧ g.targetCount = old.targetCount) :
    SameSizes s (s.withProgress r' groups) :=
  (withRollout hr hrow htotal).trans (withGroups hg)

lemma issued {g : RolloutGroup} {actions : List Action} {now : Nat}
    (hg : s.group? g.id = some g) : SameSizes s (s.issued g actions now) := by
  have hroster := sameRoster_begunWith g (s.missing actions) now
  have hsame : SameSizes s (s.withActions (s.missing actions)) :=
    ⟨fun hx => ⟨_, (group?_withActions s _ _).symm.trans hx, rfl⟩,
      fun hx => ⟨_, (rollout?_withActions s _ _).symm.trans hx, rfl⟩⟩
  have hold : (s.withActions (s.missing actions)).group?
      (begunWith g (s.missing actions) now).id = some g := by
    rw [hroster.id, group?_withActions]
    exact hg
  exact hsame.trans (withGroup hold hroster.targetCount)

/-- Only the actions change, and one group counts them. -/
lemma recount {s' : Store} (h : Keyed s) (hrollouts : s'.rollouts = s.rollouts)
    (hgroups : s'.groups = s.groups) {id : GroupId} {g : RolloutGroup}
    (hg : s.group? id = some g) (counts : StatusCounts) :
    SameSizes s (s'.withGroup { g with counts := counts }) := by
  have hid := (h.group_key hg).1
  have hsame : SameSizes s s' := by
    refine ⟨fun hx => ⟨_, ?_, rfl⟩, fun hx => ⟨_, ?_, rfl⟩⟩
    · rwa [group?, hgroups] at hx
    · rwa [rollout?, hrollouts] at hx
  have hstored : s'.group? g.id = some g := by
    rw [group?, hgroups, hid]
    exact hg
  exact hsame.trans (withGroup hstored rfl)

lemma withStatus {a : Action} (h : Keyed s) (ha : s.action? a.id = some a) (status : ActionStatus)
    (now : Nat) : SameSizes s (s.withStatus a status now) := by
  obtain ⟨g, hg, -⟩ := h.action_group ha
  rw [withStatus_eq hg]
  refine recount h ?_ ?_ hg _ <;> rfl

lemma dropped {a : Action} (h : Keyed s) (ha : s.action? a.id = some a) :
    SameSizes s (s.dropped a) := by
  obtain ⟨g, hg, -⟩ := h.action_group ha
  rw [dropped_eq hg]
  refine recount h ?_ ?_ hg _ <;> rfl

lemma cancelled {actions : List Action} (now : Nat) (h : Sound s)
    (hn : (actions.map (·.id)).Nodup) (hstored : ∀ a ∈ actions, s.action? a.id = some a) :
    SameSizes s (s.cancelled actions now) := by
  induction actions generalizing s with
  | nil => exact refl s
  | cons a actions ih =>
    have ha := hstored a List.mem_cons_self
    have hrest := ih (h.withStatus ha .canceling now) (nodup_keys_cons hn).2
      (stored_withStatus hn hstored .canceling now)
    exact (withStatus h.toKeyed ha .canceling now).trans hrest

end SameSizes

lemma WithinQuota.create {n : NewRollout} {quota : Quota} {targets : OrderedSet}
    {plans : List (List TargetId)} {now : Nat} {r : Rollout} (h : WithinQuota quota s)
    (hfair : Partition.Fair targets quota plans)
    (htotal : r.totalTargets = (n.rollout (n.groupsFrom 0 plans) targets.size now).totalTargets) :
    WithinQuota quota (s.withProgress r (n.groupsFrom 0 plans)) where
  groups hg := by
    rcases group?_withGroups_cases hg with ⟨hmem, -⟩ | hold
    · have htargets := n.map_targets_groupsFrom 0 plans
      have hplan := List.mem_map_of_mem (f := fun g : RolloutGroup => g.targets) hmem
      rw [htargets] at hplan
      obtain ⟨index, plan, -, -, rfl⟩ := n.mem_groupsFrom hmem
      exact hfair.group_le plan hplan
    · exact h.groups hold
  rollouts hr := by
    rw [Store.withProgress, rollout?_withGroups, rollout?_withRollout] at hr
    split at hr
    · obtain rfl := Option.some.inj hr
      rw [htotal]
      exact hfair.size_eq ▸ hfair.total_le
    · exact h.rollouts hr

lemma WithinQuota.join {quota : Quota} {r : Rollout} {last : RolloutGroup}
    {added : List TargetId} (h : WithinQuota quota s)
    (hgrowth : Partition.checkGrowth last.targetCount r.totalTargets added.length quota = .ok ()) :
    WithinQuota quota (s.withProgress { r with totalTargets := r.totalTargets + added.length }
      [last.joined added]) where
  groups hg := by
    rcases group?_withGroups_cases hg with ⟨hmem, -⟩ | hold
    · obtain rfl := List.mem_singleton.1 hmem
      exact (Partition.of_checkGrowth hgrowth).1
    · exact h.groups hold
  rollouts hr := by
    rw [Store.withProgress, rollout?_withGroups, rollout?_withRollout] at hr
    split at hr
    · obtain rfl := Option.some.inj hr
      exact (Partition.of_checkGrowth hgrowth).2
    · exact h.rollouts hr

/-- **No group and no rollout grows beyond the quota** under which it is made and resolved. -/
theorem WithinQuota.move {quota : Quota} (h : WithinQuota quota s) (hs : Sound s)
    (hm : Move (Intent.Within (· = quota)) s s') : WithinQuota quota s' := by
  have hrow : ∀ {c now} {r r' : Rollout}, r.apply? c now = some r' →
      r'.id = r.id ∧ r'.totalTargets = r.totalTargets := fun happly =>
    ⟨Rollout.id_of_apply happly, by rw [(Rollout.apply?_eq_some happly).2]⟩
  cases hm with
  | beside hb =>
    refine h.of_sameSizes ⟨fun hg => ⟨_, ?_, rfl⟩, fun hr => ⟨_, ?_, rfl⟩⟩
    · rwa [group?, hb.groups] at hg
    · rwa [rollout?, hb.rollouts] at hr
  | @create n _ targets plans approval now r hmay hcheck hplans hnew happly =>
    -- the allowed quota is the only one
    obtain rfl := hmay
    exact h.create (partition_fair hplans) (hrow happly).2
  | order _ hr hc happly => exact h.of_sameSizes (.withRollout hr (hrow happly).1 (hrow happly).2)
  | resume _ hr happly =>
    refine h.of_sameSizes (.withProgress hr (hrow happly).1 (hrow happly).2 fun g hg => ?_)
    obtain ⟨x, hx, -, rfl⟩ := mem_acknowledged.1 hg
    exact ⟨x, (hs.mem_groupsOf.1 hx).1, rfl⟩
  | @stop r r' now _ hr happly =>
    have hstopped := hs.withRow hr (hrow happly).1 ((hs.agrees hr).order rfl happly)
    exact h.of_sameSizes ((SameSizes.withRollout hr (hrow happly).1 (hrow happly).2).trans
      (.cancelled now hstopped (nodup_openActions hs.toKeyed r.id)
        (stored_of_mem_openActions hs.toKeyed)))
  | @trigger r g g' now _ hr hrun hg hend =>
    have hstored := (hs.mem_groupsOf.1 hg).1
    rw [trigger?] at hend
    split at hend
    · obtain rfl := Option.some.inj hend
      exact h.of_sameSizes (.withGroup hstored rfl)
    · simp at hend
  | @settle r g g' now hr hrun hg _ hverdict hend =>
    obtain ⟨-, outcome, rfl⟩ := settle?_eq_some hverdict hend
    have hstored := (hs.mem_groupsOf.1 hg).1
    exact h.of_sameSizes (.withGroup hstored rfl)
  | @fail r r' g g' now reason _ hr hg _ hverdict hend happly =>
    rw [hverdict] at hend
    obtain ⟨-, rfl⟩ := settle?_failed hend
    have hstored := (hs.mem_groupsOf.1 hg).1
    refine h.of_sameSizes (.withProgress hr (hrow happly).1 (hrow happly).2 fun x hx => ?_)
    obtain rfl := List.mem_singleton.1 hx
    exact ⟨g, hstored, rfl⟩
  | finish _ hr _ happly => exact h.of_sameSizes (.withRollout hr (hrow happly).1 (hrow happly).2)
  | @giveUp r r' now reason _ hr happly =>
    have hid : ({ r' with lastError := some reason } : Rollout).id = r.id := (hrow happly).1
    exact h.of_sameSizes (.withRollout hr hid (hrow happly).2)
  | stamp hr hrun => exact h.of_sameSizes (.withRollout hr rfl rfl)
  | @join r last _ added hmay hr hrun hlast hopen hnodup hfresh hgrowth =>
    obtain rfl := hmay
    exact h.join hgrowth
  | report _ ha hstatus hopen => exact h.of_sameSizes (.withStatus hs.toKeyed ha _ _)
  | dropAction _ ha hr hdeleting hidle => exact h.of_sameSizes (.dropped hs.toKeyed ha)
  | @dropGroup g r _ _ _ hg hr hdeleting hnone =>
    exact h.of_sameSizes
      ⟨fun hx => ⟨_, (group?_withoutGroup_eq_some.1 hx).2, rfl⟩, fun hx => ⟨_, hx, rfl⟩⟩
  | @purge _ r r' now _ hr hnone happly hb =>
    have hid : ({ r' with groupIds := [] } : Rollout).id = r.id := (hrow happly).1
    have hsame : SameSizes s (s.withRollout { r' with groupIds := [] }) :=
      .withRollout hr hid (hrow happly).2
    refine h.of_sameSizes (hsame.trans ⟨fun hg => ⟨_, ?_, rfl⟩, fun hr => ⟨_, ?_, rfl⟩⟩)
    · rwa [group?, hb.groups] at hg
    · rwa [rollout?, hb.rollouts] at hr

theorem WithinQuota.step {quota : Quota} (h : WithinQuota quota s) (hs : Sound s)
    (hstep : Step (Intent.Within (· = quota)) s s') : WithinQuota quota s' := by
  rcases hstep with hm | ⟨-, hi⟩
  · exact h.move hs hm
  · cases hi with
    | issue hr hrun hg hmay htargets => exact h.of_sameSizes (.issued (hs.mem_groupsOf.1 hg).1)

end StagedRollout.Store
