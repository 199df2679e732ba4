/-
# Sound stores

A sound store is keyed, its groups count their actions rightly, and every rollout agrees with its
groups.  This is the invariant of all operations.  It says nothing about devices, saved filters
and leases, so these may change at will (`Sound.congr`).

A write of rollouts and groups is seen through `groupsOf_withGroups`: each group of a rollout is
replaced by the one that was written under its id.
-/
import StagedRollout.Proofs.Progression.Agreement
import StagedRollout.Proofs.Store.Keyed

namespace StagedRollout.Store

/-- The invariant of all operations. -/
structure Sound (s : Store) : Prop extends Keyed s where
  counted : ∀ {id g}, s.group? id = some g → ∀ status, g.counts.get status = s.tally id status
  agrees : ∀ {id r}, s.rollout? id = some r → r.AgreesWith (s.groupsOf id)

/-- Two stores with the same rollouts, groups and actions. -/
structure SameProgress (s s' : Store) : Prop where
  rollouts : s'.rollouts = s.rollouts
  groups : s'.groups = s.groups
  actions : s'.actions = s.actions

lemma SameProgress.refl (s : Store) : SameProgress s s := ⟨rfl, rfl, rfl⟩

lemma SameProgress.trans {s s' s'' : Store} (h : SameProgress s s') (h' : SameProgress s' s'') :
    SameProgress s s'' :=
  ⟨h'.rollouts.trans h.rollouts, h'.groups.trans h.groups, h'.actions.trans h.actions⟩

lemma sound_empty : Sound .empty where
  rollouts_intact := fun key row h => by simp [empty] at h
  groups_intact := fun key row h => by simp [empty] at h
  actions_intact := fun key row h => by simp [empty] at h
  rollout_key := fun {id r} h => by simp [empty, rollout?, Table.intact?] at h
  group_key := fun {id g} h => by simp [empty, group?, Table.intact?] at h
  group_rollout := fun {id g} h => by simp [empty, group?, Table.intact?] at h
  action_key := fun {id a} h => by simp [empty, action?, Table.intact?] at h
  action_group := fun {id a} h => by simp [empty, action?, Table.intact?] at h
  counted := fun {id g} h => by simp [empty, group?, Table.intact?] at h
  agrees := fun {id r} h => by simp [empty, rollout?, Table.intact?] at h

/-- Nothing but rollouts, groups and actions matters. -/
lemma Sound.congr {s s' : Store} (h : Sound s) (hs : SameProgress s s') : Sound s' := by
  obtain ⟨hr, hg, ha⟩ := hs
  cases s
  cases s'
  subst hr hg ha
  exact { h with }

/-! ## Writing groups -/

/-- What stands in the place of a group once groups are written. -/
def replacedBy (groups : List RolloutGroup) (x : RolloutGroup) : RolloutGroup :=
  (groups.find? fun g => g.id == x.id).getD x

lemma replacedBy_of_notMem {groups : List RolloutGroup} {x : RolloutGroup}
    (h : ∀ g ∈ groups, g.id ≠ x.id) : replacedBy groups x = x := by
  have hnone : (groups.find? fun g => g.id == x.id) = none :=
    List.find?_eq_none.2 fun g hg => by simpa using h g hg
  rw [replacedBy, hnone, Option.getD_none]

lemma replacedBy_of_mem {groups : List RolloutGroup} {g x : RolloutGroup}
    (hn : (groups.map (·.id)).Nodup) (hg : g ∈ groups) (hid : g.id = x.id) :
    replacedBy groups x = g := by
  rcases hf : groups.find? fun g => g.id == x.id with _ | g'
  · exact absurd hid (by simpa using List.find?_eq_none.1 hf g hg)
  · have hid' : g'.id = x.id := by simpa using List.find?_some hf
    have hmem := List.mem_of_find?_eq_some hf
    rw [replacedBy, hf, Option.getD_some]
    exact List.inj_on_of_nodup_map hn hmem hg (hid'.trans hid.symm)

/-- Groups that may be written in the places of stored ones: each of them stays in its rollout and
at its index, and keeps its members. -/
structure Replaces (s : Store) (groups : List RolloutGroup) : Prop where
  nodup : (groups.map (·.id)).Nodup
  stored : ∀ g ∈ groups, ∃ old, s.group? g.id = some old ∧ g.rolloutId = old.rolloutId ∧
    g.index = old.index ∧ ∀ t ∈ old.targets, t ∈ g.targets

variable {s : Store}

lemma Replaces.nil : Replaces s [] := ⟨List.nodup_nil, fun _ h => absurd h List.not_mem_nil⟩

lemma Replaces.singleton {g old : RolloutGroup} (hold : s.group? g.id = some old)
    (hrollout : g.rolloutId = old.rolloutId) (hindex : g.index = old.index)
    (htargets : ∀ t ∈ old.targets, t ∈ g.targets) : Replaces s [g] where
  nodup := List.nodup_singleton _
  stored x hx := by
    obtain rfl := List.mem_singleton.1 hx
    exact ⟨old, hold, hrollout, hindex, htargets⟩

lemma Keyed.withGroups {groups : List RolloutGroup} (h : Keyed s) (hr : Replaces s groups) :
    Keyed (s.withGroups groups) := by
  induction groups generalizing s with
  | nil => exact h
  | cons g groups ih =>
    obtain ⟨hne, htail⟩ := nodup_keys_cons hr.nodup
    obtain ⟨old, hold, hrollout, hindex, htargets⟩ := hr.stored g List.mem_cons_self
    obtain ⟨hid, hplaced⟩ := h.group_key hold
    obtain ⟨r, hrow⟩ := h.group_rollout hold
    have hkeyed : Keyed (s.withGroup g) := by
      refine h.withGroup ⟨?_, hindex ▸ hplaced.index_lt⟩ (hrollout ▸ hrow) fun {old'} hold' => ?_
      · rw [hrollout, hindex, ← hplaced.id_eq, hid]
      · obtain rfl := Option.some.inj (hold.symm.trans hold')
        exact ⟨hrollout.symm, htargets⟩
    -- what the other groups replace is still stored
    refine ih hkeyed ⟨htail, fun x hx => ?_⟩
    obtain ⟨oldx, hx', hrest⟩ := hr.stored x (List.mem_cons_of_mem _ hx)
    exact ⟨oldx, by rw [group?_withGroup, if_neg (hne x hx)]; exact hx', hrest⟩

/-- Each group of a rollout is replaced by the one that was written under its id. -/
theorem Keyed.groupsOf_withGroups {groups : List RolloutGroup} (h : Keyed s)
    (hr : Replaces s groups) (id : RolloutId) :
    (s.withGroups groups).groupsOf id = (s.groupsOf id).map (replacedBy groups) := by
  have hcases : ∀ x : RolloutGroup, (∀ g ∈ groups, g.id ≠ x.id) ∨ ∃ g ∈ groups, g.id = x.id := by
    intro x
    by_cases hx : ∃ g ∈ groups, g.id = x.id
    · exact .inr hx
    · exact .inl fun g hg heq => hx ⟨g, hg, heq⟩
  have hid : ∀ x : RolloutGroup, (replacedBy groups x).id = x.id := by
    intro x
    rcases hcases x with hx | ⟨g, hg, hgx⟩
    · rw [replacedBy_of_notMem hx]
    · rw [replacedBy_of_mem hr.nodup hg hgx, hgx]
  refine (h.withGroups hr).groupsOf_eq ?_ fun g => ?_
  · rw [List.pairwise_map]
    refine (h.groupsOf_ascending id).imp fun {a b} hlt => ?_
    rw [hid, hid]
    exact hlt
  rw [List.mem_map]
  constructor
  · rintro ⟨x, hx, rfl⟩
    obtain ⟨hgroup, hrollout⟩ := h.mem_groupsOf.1 hx
    rcases hcases x with hnone | ⟨g, hg, hgx⟩
    · rw [replacedBy_of_notMem hnone, group?_withGroups_of_notMem s hnone]
      exact ⟨hgroup, hrollout⟩
    -- a written group stands under the id of the one that it replaces, in the same rollout
    · obtain ⟨old, hold, hro, -⟩ := hr.stored g hg
      rw [hgx] at hold
      obtain rfl := Option.some.inj (hgroup.symm.trans hold)
      rw [replacedBy_of_mem hr.nodup hg hgx]
      exact ⟨group?_withGroups_of_mem s hr.nodup hg, hro.trans hrollout⟩
  · rintro ⟨hgroup, hrollout⟩
    rcases hcases g with hnone | ⟨g', hg', hgx⟩
    · rw [group?_withGroups_of_notMem s hnone] at hgroup
      exact ⟨g, h.mem_groupsOf.2 ⟨hgroup, hrollout⟩, replacedBy_of_notMem hnone⟩
    · have hnew := group?_withGroups_of_mem s hr.nodup hg'
      rw [hgx] at hnew
      obtain rfl := Option.some.inj (hnew.symm.trans hgroup)
      obtain ⟨old, hold, hro, -⟩ := hr.stored g' hg'
      have hoid := (h.group_key hold).1
      refine ⟨old, h.mem_groupsOf.2 ⟨hoid ▸ hold, hro ▸ hrollout⟩, ?_⟩
      exact replacedBy_of_mem hr.nodup hg' hoid.symm

/-- The store with a rollout and with groups in the places of some that it has. -/
def withProgress (s : Store) (r : Rollout) (groups : List RolloutGroup) : Store :=
  (s.withRollout r).withGroups groups

lemma Keyed.agrees_withProgress {r r' : Rollout} {groups : List RolloutGroup} (h : Keyed s)
    (hall : ∀ {id r}, s.rollout? id = some r → r.AgreesWith (s.groupsOf id))
    (hr : s.rollout? r'.id = some r) (hg : Replaces s groups)
    (hof : ∀ g ∈ groups, g.rolloutId = r'.id)
    (hagrees : r'.AgreesWith ((s.groupsOf r'.id).map (replacedBy groups))) {id : RolloutId}
    {r₁ : Rollout} (hr₁ : (s.withProgress r' groups).rollout? id = some r₁) :
    r₁.AgreesWith ((s.withProgress r' groups).groupsOf id) := by
  have hkeyed : Keyed (s.withRollout r') := h.withRollout (h.rollout_key hr).2
  rw [withProgress, rollout?_withGroups, rollout?_withRollout] at hr₁
  rw [withProgress, hkeyed.groupsOf_withGroups ⟨hg.nodup, hg.stored⟩, groupsOf_withRollout]
  split at hr₁
  · rename_i hid
    obtain rfl := Option.some.inj hr₁
    rw [hid]
    exact hagrees
  · rename_i hne
    -- no group of another rollout is written
    have hsame : (s.groupsOf id).map (replacedBy groups) = s.groupsOf id := by
      refine (List.map_congr_left fun x hx => ?_).trans (List.map_id' _)
      obtain ⟨hxs, hxid⟩ := h.mem_groupsOf.1 hx
      refine replacedBy_of_notMem fun g hmem heq => hne ?_
      obtain ⟨old, hold, hro, -⟩ := hg.stored g hmem
      rw [heq] at hold
      obtain rfl := Option.some.inj (hxs.symm.trans hold)
      rw [← hxid, ← hro, hof g hmem]
    rw [hsame]
    exact hall hr₁

/-- **A rollout and groups of it may be written if they agree afterwards** and the counters stay
as they are. -/
theorem Sound.withProgress {r r' : Rollout} {groups : List RolloutGroup} (h : Sound s)
    (hr : s.rollout? r'.id = some r) (hg : Replaces s groups)
    (hof : ∀ g ∈ groups, g.rolloutId = r'.id)
    (hcounts : ∀ g ∈ groups, ∀ old, s.group? g.id = some old → g.counts = old.counts)
    (hagrees : r'.AgreesWith ((s.groupsOf r'.id).map (replacedBy groups))) :
    Sound (s.withProgress r' groups) := by
  have hkeyed : Keyed (s.withRollout r') := h.toKeyed.withRollout (h.rollout_key hr).2
  have hgroups : Replaces (s.withRollout r') groups := ⟨hg.nodup, hg.stored⟩
  refine { hkeyed.withGroups hgroups with
    counted := ?_
    agrees := h.toKeyed.agrees_withProgress h.agrees hr hg hof hagrees }
  intro id g hgr status
  rw [Store.withProgress, tally_withGroups, tally_withRollout]
  rcases group?_withGroups_cases hgr with ⟨hmem, rfl⟩ | hold
  · obtain ⟨old, hold, -⟩ := hg.stored g hmem
    rw [hcounts g hmem old hold]
    exact h.counted hold status
  · exact h.counted hold status

lemma withRollout_eq_self {r : Rollout} (hr : s.rollout? r.id = some r) : s.withRollout r = s := by
  rw [withRollout, Table.put_eq_self hr]

lemma withProgress_eq_withGroup {r : Rollout} (hr : s.rollout? r.id = some r) (g : RolloutGroup) :
    s.withProgress r [g] = s.withGroup g := by
  rw [withProgress, withRollout_eq_self hr]
  rfl

/-- **The actions of one group may change if the group counts them anew.** -/
theorem Sound.recount {s' : Store} {g g' : RolloutGroup} {r : Rollout} (h : Sound s)
    (hkeyed : Keyed s') (hrollouts : s'.rollouts = s.rollouts) (hgroups : s'.groups = s.groups)
    (hg : s.group? g'.id = some g) (hr : s.rollout? g'.rolloutId = some r)
    (hroster : RolloutGroup.SameRoster g g') (hof : g'.rolloutId = g.rolloutId)
    (hcounted : ∀ status, g'.counts.get status = s'.tally g'.id status)
    (hothers : ∀ id, id ≠ g'.id → ∀ status, s'.tally id status = s.tally id status)
    (hagrees : r.AgreesWith ((s.groupsOf g'.rolloutId).map (replacedBy [g']))) :
    Sound (s'.withGroup g') := by
  have hrow : ∀ id, s'.rollout? id = s.rollout? id := fun id => by
    rw [rollout?, hrollouts, rollout?]
  have hgroup : ∀ id, s'.group? id = s.group? id := fun id => by rw [group?, hgroups, group?]
  have hgroupsOf : ∀ id, s'.groupsOf id = s.groupsOf id := fun id => by
    rw [groupsOf, hgroups, groupsOf]
  have hreplaces : Replaces s' [g'] :=
    .singleton ((hgroup _).trans hg) hof hroster.index fun t ht => hroster.targets ▸ ht
  have hrid := (h.rollout_key hr).1
  have hr' : s'.rollout? r.id = some r := by
    rw [hrid, hrow]
    exact hr
  refine { hkeyed.withGroups hreplaces with
    counted := ?_
    agrees := ?_ }
  · intro id x hx status
    rw [tally_withGroup]
    rw [group?_withGroup] at hx
    split at hx
    · rename_i hid
      obtain rfl := Option.some.inj hx
      rw [hid]
      exact hcounted status
    · rename_i hne
      rw [hothers id hne]
      exact h.counted ((hgroup id).symm.trans hx) status
  · intro id x hx
    rw [← withProgress_eq_withGroup hr'] at hx ⊢
    refine hkeyed.agrees_withProgress (fun {id r} hr => ?_) hr' hreplaces ?_ ?_ hx
    · rw [hgroupsOf]
      exact h.agrees ((hrow id).symm.trans hr)
    · intro y hy
      obtain rfl := List.mem_singleton.1 hy
      exact hrid.symm
    · rw [hgroupsOf, hrid]
      exact hagrees

end StagedRollout.Store
