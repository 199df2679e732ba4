/-
# New rollouts

A rollout with a new name joins a sound store together with its groups.  Its groups are numbered
in order, none of them has started, and they are a partition of the devices that the filter
selects, so the new rollout agrees with them (`NewRollout.agreesWith`).
-/
import StagedRollout.Proofs.Progression.Steps
import StagedRollout.Proofs.Rollout.Partition

namespace StagedRollout

namespace NewRollout

variable (n : NewRollout)

/-! ## The groups of a definition -/

lemma map_index_groupsFrom (i : Nat) (plans : List (List TargetId)) :
    (n.groupsFrom i plans).map (·.index) = List.range' i plans.length := by
  induction plans generalizing i with
  | nil => rfl
  | cons plan plans ih =>
    rw [groupsFrom, List.map_cons, ih, List.length_cons, List.range'_succ]
    rfl

lemma map_targets_groupsFrom (i : Nat) (plans : List (List TargetId)) :
    (n.groupsFrom i plans).map (·.targets) = plans := by
  induction plans generalizing i with
  | nil => rfl
  | cons plan plans ih =>
    rw [groupsFrom, List.map_cons, ih]
    rfl

lemma mem_groupsFrom {i : Nat} {plans : List (List TargetId)} {g : RolloutGroup}
    (hg : g ∈ n.groupsFrom i plans) :
    ∃ index plan, i ≤ index ∧ index < i + plans.length ∧ g = n.group index plan := by
  induction plans generalizing i with
  | nil => simp [groupsFrom] at hg
  | cons plan plans ih =>
    rcases List.mem_cons.1 hg with rfl | hg
    · exact ⟨i, plan, Nat.le_refl i, by simp, rfl⟩
    · obtain ⟨index, plan, hle, hlt, rfl⟩ := ih hg
      refine ⟨index, plan, by omega, ?_, rfl⟩
      rw [List.length_cons]
      omega

lemma isName_of_check {n : NewRollout} (h : n.check = .ok ()) : isName n.name = true := by
  obtain ⟨⟨⟩, hname, -⟩ := Except.bind_eq_ok h
  rw [checkName] at hname
  split at hname
  · assumption
  · simp at hname

/-! ## The new rollout and its groups -/

variable {n}

/-- A new rollout agrees with its groups. -/
lemma agreesWith {plans : List (List TargetId)} {targets : OrderedSet} {quota : Quota}
    {approval : Bool} {now : Nat} {r : Rollout} (hplans : Partition.Fair targets quota plans)
    (happly : Rollout.apply? (n.rollout (n.groupsFrom 0 plans) targets.size now)
      (.created approval) now = some r) : r.AgreesWith (n.groupsFrom 0 plans) := by
  obtain ⟨hleads, hrow⟩ := Rollout.apply?_eq_some happly
  have hscheduled : ∀ g ∈ n.groupsFrom 0 plans, g.state = .scheduled := fun g hg => by
    obtain ⟨index, plan, -, -, rfl⟩ := n.mem_groupsFrom hg
    rfl
  have htargets := n.map_targets_groupsFrom 0 plans
  have hsizes : ∀ g ∈ n.groupsFrom 0 plans, g.targetCount = g.targets.length := fun g hg => by
    obtain ⟨index, plan, -, -, rfl⟩ := n.mem_groupsFrom hg
    rfl
  have hstate : r.state = .waitingForApproval ∨ r.state = .ready := by
    have hcreating : (n.rollout (n.groupsFrom 0 plans) targets.size now).state = .creating := rfl
    rw [hcreating] at hleads
    generalize r.state = dest at hleads ⊢
    cases hleads
    · exact .inl rfl
    · exact .inr rfl
  have hroster : (n.rollout (n.groupsFrom 0 plans) targets.size now).Roster
      (n.groupsFrom 0 plans) := by
    refine ⟨rfl, ?_, hsizes, ?_, ?_⟩
    · have hlen : (n.groupsFrom 0 plans).length = plans.length := by
        rw [← List.length_map, htargets]
      rw [n.map_index_groupsFrom, hlen, List.range_eq_range']
    · rw [List.flatMap_def, htargets]
      exact hplans.nodup
    · have hcounts : (n.groupsFrom 0 plans).map (·.targetCount) = plans.map List.length := by
        have hmap := congrArg (List.map List.length) htargets
        rw [List.map_map] at hmap
        exact (List.map_congr_left hsizes).trans hmap
      rw [hcounts]
      exact hplans.size_eq
  refine ⟨?_, fun _ => hroster.congr ?_ ?_, fun _ => .untouched fun g hg => ?_, fun _ => ?_⟩
  · have hdeleted : r.deleted = false := by
      rw [congrArg Rollout.deleted hrow]
      rfl
    rcases hstate with hs | hs <;> simp [hdeleted, hs]
  · rw [hrow]
  · rw [hrow]
  · obtain ⟨index, plan, -, -, rfl⟩ := n.mem_groupsFrom hg
    exact ⟨rfl, rfl, rfl⟩
  · rcases hstate with hs | hs <;> rw [hs] <;> exact hscheduled

end NewRollout

/-! ## New rows -/

namespace Store

variable {s : Store} {r : Rollout} {groups : List RolloutGroup}

/-- Groups that are new with their rollout. -/
structure NewGroups (r : Rollout) (groups : List RolloutGroup) : Prop where
  placed : ∀ g ∈ groups, g.Placed
  rollout : ∀ g ∈ groups, g.rolloutId = r.id
  counts : ∀ g ∈ groups, g.counts = .zero
  sorted : groups.Pairwise fun a b => a.index < b.index

lemma NewGroups.ascending (hg : NewGroups r groups) :
    groups.Pairwise fun a b => a.id < b.id := by
  refine hg.sorted.imp_of_mem fun {a b} ha hb hlt => ?_
  rw [(hg.placed a ha).id_eq, (hg.placed b hb).id_eq, hg.rollout a ha, hg.rollout b hb]
  exact groupId_lt (hg.placed b hb).index_lt hlt

lemma NewGroups.nodup (hg : NewGroups r groups) : (groups.map (·.id)).Nodup :=
  List.pairwise_map.2 (hg.ascending.imp String.ne_of_lt)

/-- A rollout that is not stored has no groups. -/
lemma Keyed.group?_eq_none {g : RolloutGroup} (h : Keyed s) (hnew : s.rollout? r.id = none)
    (hname : NewRollout.isName r.id = true) (hplaced : g.Placed) (hof : g.rolloutId = r.id) :
    s.group? g.id = none := by
  rcases hold : s.group? g.id with _ | old
  · rfl
  · exfalso
    -- the id of a stored group names its rollout, which is stored too
    obtain ⟨hid, hplaced'⟩ := h.group_key hold
    obtain ⟨r', hr'⟩ := h.group_rollout hold
    rw [hplaced.id_eq, hplaced'.id_eq, hof] at hid
    obtain ⟨hsame, -⟩ := groupId_injective (h.rollout_key hr').2 hname hplaced'.index_lt
      hplaced.index_lt hid
    rw [hsame, hnew] at hr'
    exact absurd hr' (by simp)

/-- No action belongs to a group that is not stored. -/
lemma Keyed.tally_eq_zero {id : GroupId} (h : Keyed s) (hnone : s.group? id = none)
    (status : ActionStatus) : s.tally id status = 0 := by
  refine s.tally_eq_zero_iff.2 (fun key a ha heq => ?_) status
  obtain ⟨g, hg, -⟩ := h.action_group ha
  rw [heq, hnone] at hg
  exact absurd hg (by simp)

lemma Keyed.withNewGroups (h : Keyed s) (hr : s.rollout? r.id = some r)
    (hplaced : ∀ g ∈ groups, g.Placed) (hof : ∀ g ∈ groups, g.rolloutId = r.id)
    (hn : (groups.map (·.id)).Nodup) (hnone : ∀ g ∈ groups, s.group? g.id = none) :
    Keyed (s.withGroups groups) := by
  induction groups generalizing s with
  | nil => exact h
  | cons g groups ih =>
    obtain ⟨hne, htail⟩ := nodup_keys_cons hn
    have hg := hnone g List.mem_cons_self
    have hkeyed : Keyed (s.withGroup g) := by
      refine h.withGroup (hplaced g List.mem_cons_self)
        (by rw [hof g List.mem_cons_self]; exact hr) fun {old} hold => ?_
      rw [hg] at hold
      exact absurd hold (by simp)
    refine ih hkeyed hr (fun x hx => hplaced x (List.mem_cons_of_mem _ hx))
      (fun x hx => hof x (List.mem_cons_of_mem _ hx)) htail fun x hx => ?_
    rw [group?_withGroup, if_neg (hne x hx)]
    exact hnone x (List.mem_cons_of_mem _ hx)

section

variable (h : Keyed s) (hnew : s.rollout? r.id = none) (hname : NewRollout.isName r.id = true)
  (hg : NewGroups r groups)
include h hnew hname hg

lemma Keyed.group?_new_eq_none : ∀ g ∈ groups, s.group? g.id = none := fun g hmem =>
  h.group?_eq_none hnew hname (hg.placed g hmem) (hg.rollout g hmem)

lemma Keyed.withNew : Keyed (s.withProgress r groups) := by
  have hrow : (s.withRollout r).rollout? r.id = some r := by simp
  exact (h.withRollout hname).withNewGroups hrow hg.placed hg.rollout hg.nodup
    (h.group?_new_eq_none hnew hname hg)

omit hname in
/-- A group is new, or it was stored and belongs to another rollout. -/
lemma Keyed.group?_withNew {id : GroupId} {g : RolloutGroup}
    (hgr : (s.withProgress r groups).group? id = some g) :
    (g ∈ groups ∧ g.id = id) ∨ s.group? id = some g ∧ g.rolloutId ≠ r.id := by
  by_cases hx : ∃ x ∈ groups, x.id = id
  · obtain ⟨x, hx, rfl⟩ := hx
    rw [Store.withProgress, group?_withGroups_of_mem _ hg.nodup hx] at hgr
    exact .inl (Option.some.inj hgr ▸ ⟨hx, rfl⟩)
  · rw [Store.withProgress, group?_withGroups_of_notMem _ fun x hxg heq => hx ⟨x, hxg, heq⟩,
      group?_withRollout] at hgr
    refine .inr ⟨hgr, fun heq => ?_⟩
    obtain ⟨r', hr'⟩ := h.group_rollout hgr
    rw [heq, hnew] at hr'
    exact absurd hr' (by simp)

lemma Keyed.groupsOf_withNew : (s.withProgress r groups).groupsOf r.id = groups := by
  refine (h.withNew hnew hname hg).groupsOf_eq hg.ascending fun g => ⟨fun hmem => ?_, ?_⟩
  · exact ⟨group?_withGroups_of_mem _ hg.nodup hmem, hg.rollout g hmem⟩
  · rintro ⟨hgr, hof⟩
    rcases h.group?_withNew hnew hg hgr with ⟨hmem, -⟩ | ⟨-, hne⟩
    · exact hmem
    · exact absurd hof hne

lemma Keyed.groupsOf_withNew_of_ne {id : RolloutId} (hne : id ≠ r.id) :
    (s.withProgress r groups).groupsOf id = s.groupsOf id := by
  refine (h.withNew hnew hname hg).groupsOf_eq (h.groupsOf_ascending id) fun g => ?_
  rw [h.mem_groupsOf]
  constructor
  · rintro ⟨hgr, hof⟩
    refine ⟨?_, hof⟩
    rw [Store.withProgress, group?_withGroups_of_notMem _ fun x hx heq => ?_]
    · exact hgr
    · rw [← heq, h.group?_new_eq_none hnew hname hg x hx] at hgr
      exact absurd hgr (by simp)
  · rintro ⟨hgr, hof⟩
    rcases h.group?_withNew hnew hg hgr with ⟨hmem, -⟩ | ⟨hold, -⟩
    · exact absurd (hof.symm.trans (hg.rollout g hmem)) hne
    · exact ⟨hold, hof⟩

end

/-- **A new rollout may be written with its groups.** -/
theorem Sound.withNew (h : Sound s) (hnew : s.rollout? r.id = none)
    (hname : NewRollout.isName r.id = true) (hg : NewGroups r groups)
    (hagrees : r.AgreesWith groups) : Sound (s.withProgress r groups) := by
  refine { h.toKeyed.withNew hnew hname hg with counted := ?_, agrees := ?_ }
  · intro id g hgr status
    rw [Store.withProgress, tally_withGroups, tally_withRollout]
    rcases h.toKeyed.group?_withNew hnew hg hgr with ⟨hmem, rfl⟩ | ⟨hold, -⟩
    · rw [h.toKeyed.tally_eq_zero (h.toKeyed.group?_new_eq_none hnew hname hg g hmem),
        hg.counts g hmem]
      cases status <;> rfl
    · exact h.counted hold status
  · intro id r' hr'
    rw [Store.withProgress, rollout?_withGroups, rollout?_withRollout] at hr'
    split at hr'
    · rename_i hid
      obtain rfl := Option.some.inj hr'
      rw [hid, h.toKeyed.groupsOf_withNew hnew hname hg]
      exact hagrees
    · rename_i hne
      rw [h.toKeyed.groupsOf_withNew_of_ne hnew hname hg hne]
      exact h.agrees hr'

end Store

namespace NewRollout

variable {n : NewRollout} {plans : List (List TargetId)} {r : Rollout}

lemma newGroups (hlen : plans.length ≤ groupIndexLimit) (hid : r.id = n.name) :
    Store.NewGroups r (n.groupsFrom 0 plans) where
  placed g hg := by
    obtain ⟨index, plan, -, hlt, rfl⟩ := n.mem_groupsFrom hg
    rw [Nat.zero_add] at hlt
    exact ⟨rfl, Nat.lt_of_lt_of_le hlt hlen⟩
  rollout g hg := by
    obtain ⟨index, plan, -, -, rfl⟩ := n.mem_groupsFrom hg
    exact hid.symm
  counts g hg := by
    obtain ⟨index, plan, -, -, rfl⟩ := n.mem_groupsFrom hg
    rfl
  sorted := by
    rw [← List.pairwise_map (f := fun g : RolloutGroup => g.index), n.map_index_groupsFrom]
    exact List.pairwise_lt_range'

end NewRollout

end StagedRollout
