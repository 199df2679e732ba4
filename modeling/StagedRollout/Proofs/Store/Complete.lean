/-
# Counters and members

A group counts each of its actions once, so in a sound store its counters add up to the number of
its actions.  There is at most one action for each member and none for anybody else; so a group
counts as many actions as it has members where all members have an action, and nowhere else.
-/
import StagedRollout.Proofs.Store.History

namespace StagedRollout

open RolloutGroup

/-- Counters that count some actions by status add up to the number of the actions. -/
lemma StatusCounts.total_eq_length {c : StatusCounts} {actions : List Action}
    (h : ∀ status, c.get status = actions.countP fun a => a.status == status) :
    c.total = actions.length := by
  have hsum : c.total = c.get .created + c.get .running + c.get .download + c.get .canceling +
      c.get .canceled + c.get .finishedSuccess + c.get .finishedError := rfl
  rw [hsum]
  simp only [h]
  clear h hsum
  induction actions with
  | nil => rfl
  | cons a actions ih =>
    -- the action is counted by its own status only
    cases hs : a.status <;> simp [hs, ← ih] <;> omega

namespace Store

variable {s : Store} {g : RolloutGroup}

/-- **The counters of a group add up to the number of its actions.** -/
theorem Sound.total_eq (h : Sound s) (hg : s.group? g.id = some g) :
    g.counts.total = (s.actionsOf g.id).length := by
  refine StatusCounts.total_eq_length fun status => ?_
  rw [h.counted hg, tally, Table.count, actionsOf, List.countP_filter]
  refine List.countP_congr fun a _ => ?_
  rw [Bool.and_comm]

/-- No member has two actions of its group. -/
lemma Keyed.nodup_targetIds (h : Keyed s) (id : GroupId) :
    ((s.actionsOf id).map (·.targetId)).Nodup := by
  have hids : ((s.actionsOf id).map (·.id)).Nodup :=
    List.pairwise_map.2 (((Table.rows_ascending fun ha => (h.action_key ha).1).filter _).imp
      String.ne_of_lt)
  refine List.pairwise_map.2 ((List.pairwise_map.1 hids).imp_of_mem fun {a b} ha hb hne heq => ?_)
  obtain ⟨ha, hga⟩ := h.mem_actionsOf.1 ha
  obtain ⟨hb, hgb⟩ := h.mem_actionsOf.1 hb
  exact hne (by rw [(h.action_key ha).2, (h.action_key hb).2, hga, hgb, heq])

/-- The devices that have an action of the group. -/
def served (s : Store) (g : RolloutGroup) : List TargetId := (s.actionsOf g.id).map (·.targetId)

lemma Sound.mem_served (h : Sound s) (hg : s.group? g.id = some g) {t : TargetId} :
    t ∈ s.served g ↔ ∃ a, s.action? (Action.idOf g.id t) = some a := by
  rw [served, List.mem_map]
  constructor
  · rintro ⟨a, ha, rfl⟩
    obtain ⟨ha, hga⟩ := h.mem_actionsOf.1 ha
    exact ⟨a, hga ▸ (h.action_key ha).2 ▸ ha⟩
  · rintro ⟨a, ha⟩
    obtain ⟨hgroup, hmember⟩ := h.action_member (h.isGroupId hg) ha
    exact ⟨a, h.mem_actionsOf.2 ⟨(h.action_key ha).1 ▸ ha, hgroup⟩, hmember⟩

/-- Only members have an action of a group. -/
lemma Sound.served_subset (h : Sound s) (hg : s.group? g.id = some g) :
    s.served g ⊆ g.targets := by
  intro t ht
  obtain ⟨a, ha, rfl⟩ := List.mem_map.1 ht
  obtain ⟨ha, hga⟩ := h.mem_actionsOf.1 ha
  obtain ⟨g', hg', -, hmem⟩ := h.action_group ha
  rw [hga] at hg'
  exact Option.some.inj (hg.symm.trans hg') ▸ hmem

section

variable {r : Rollout} {now : Nat}

/-- **A group counts as many actions as it has members once all of them have one**, and not
before. -/
theorem Sound.targetCount_le_total_iff (h : Sound s) (hr : s.rollout? r.id = some r)
    (hd : r.deleted = false) (hg : g ∈ s.groupsOf r.id) :
    g.targetCount ≤ g.counts.total ↔
      ∀ t ∈ g.targets, ∃ a, s.action? (Action.idOf g.id t) = some a := by
  have hstored := (h.mem_groupsOf.1 hg).1
  have hn : (s.served g).Nodup := h.nodup_targetIds g.id
  have hsubset := h.served_subset hstored
  have htotal : g.counts.total = (s.served g).length := by
    rw [h.total_eq hstored, served, List.length_map]
  rw [((h.agrees hr).roster hd).sizes g hg, htotal]
  constructor
  · intro hle t ht
    have hsame := (hn.subperm hsubset).perm_of_length_le hle
    exact (h.mem_served hstored).1 (hsame.mem_iff.2 ht)
  · intro hall
    exact ((h.nodup_targets hr hd hg).subperm fun t ht =>
      (h.mem_served hstored).2 (hall t ht)).length_le

/-- A group whose members all get actions is staffed. -/
lemma Sound.isStaffed_issued (h : Sound s) (hr : s.rollout? r.id = some r)
    (hrun : r.state = .running) (hg : g ∈ s.groupsOf r.id) (hmay : MayIssue (s.groupsOf r.id) g) :
    Progression.IsStaffed
      (begunWith g (s.missing (g.targets.map (Progression.newAction r g now))) now) := by
  generalize hactions : g.targets.map (Progression.newAction r g now) = actions
  obtain ⟨hstored, hof⟩ := h.mem_groupsOf.1 hg
  have hd := (h.agrees hr).deleted_eq_false_of_running hrun
  have hn := h.nodup_targets hr hd hg
  have hroster := sameRoster_begunWith g (s.missing actions) now
  have hissued : Sound (s.issued g actions now) :=
    hactions ▸ h.issue (.issue hr hrun hg hmay (.refl _))
  have hrow : (s.issued g actions now).rollout? r.id = some r := by
    rw [Store.issued, rollout?_withGroup, rollout?_withActions, hr]
  have hmem : begunWith g (s.missing actions) now ∈ (s.issued g actions now).groupsOf r.id := by
    refine hissued.mem_groupsOf.2 ⟨?_, (rolloutId_begunWith g _ now).trans hof⟩
    rw [Store.issued, group?_withGroup, if_pos rfl]
  refine ⟨?_, (hissued.targetCount_le_total_iff hrow hd hmem).2 fun t ht => ?_⟩
  · rcases hmay with hg | ⟨hg, -⟩
    · rw [begunWith_of_running hg]
      exact hg
    · rw [begunWith_of_scheduled hg]
  · rw [hroster.targets] at ht
    rw [hroster.id]
    cases hold : s.action? (Action.idOf g.id t) with
    | some a => exact ⟨a, action?_issued_of_some hold⟩
    | none =>
      refine ⟨Progression.newAction r g now t, ?_⟩
      rw [← hactions, action?_issued h.toKeyed hstored hn (h.isGroupId hstored) hold,
        if_pos ⟨rfl, ht⟩]

end

end Store

end StagedRollout
