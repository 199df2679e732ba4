/-
# Live resolution is safe

A live resolution of a rollout adds devices that are new to the rollout to its last group, issues
their actions if the group is running, and writes the time.  Nobody else writes in between, so the
row that is written last is the one behind the addition.
-/
import StagedRollout.Proofs.Program.Calm
import StagedRollout.Proofs.Progression.Advance
import StagedRollout.Scheduler.Live

namespace StagedRollout.Live

open RolloutGroup Store Transaction Progression

variable {allowed : Intent → Prop} {c : Chronicle} {live : Live} {fence : Option Fence} {now : Nat}

/-! ## The devices and their group -/

lemma not_mem_targets_of_mem_fresh {groups : List RolloutGroup} {resolved : OrderedSet}
    {t : TargetId} (ht : t ∈ fresh groups resolved) : ∀ g ∈ groups, t ∉ g.targets := by
  intro g hg hmem
  have hnot : (!isMember groups t) = true := (List.mem_filter.1 ht).2
  have hany : isMember groups t = true := by
    rw [isMember, List.any_eq_true]
    exact ⟨g, hg, List.contains_iff_mem.2 hmem⟩
  simp [hany] at hnot

lemma nodup_fresh (groups : List RolloutGroup) (resolved : OrderedSet) :
    (fresh groups resolved).Nodup := resolved.nodup_members.filter _

lemma growing?_eq_some {quota : Quota} {r : Rollout} {groups : List RolloutGroup} {added : Nat}
    {last : RolloutGroup} (h : growing? quota r groups added = some last) :
    groups.getLast? = some last ∧ last.state.isDone = false ∧
      Partition.checkGrowth last.targetCount r.totalTargets added quota = .ok () := by
  unfold growing? at h
  split at h
  · exact absurd h (by simp)
  rename_i g hlast
  split at h
  · exact absurd h (by simp)
  rename_i hopen
  split at h
  · rename_i hgrowth
    obtain rfl := Option.some.inj h
    exact ⟨hlast, by simpa using (not_or.1 hopen).2, hgrowth⟩
  · exact absurd h (by simp)

lemma running_of_isDue {r : Rollout} (h : live.isDue r now = true) : r.state = .running := by
  simp only [isDue, Bool.and_eq_true, decide_eq_true_eq] at h
  exact h.1.1.2

/-! ## The operation -/

/-- Adding devices that are new to a running rollout to its last group, with their actions, is
safe. -/
lemma extend_orderly {r : Rollout} {last : RolloutGroup} {added : List TargetId}
    {Q : Rollout → Chronicle → Prop} (hissue : allowed .issue) (h : Settled c)
    (hr : c.store.rollout? r.id = some r) (hlast : (c.store.groupsOf r.id).getLast? = some last)
    (hm : Move allowed c.store (c.store.withProgress
      { r with totalTargets := r.totalTargets + added.length } [last.joined added]))
    (hrun : r.state = .running) (hnodup : added.Nodup)
    (hfresh : ∀ t ∈ added, ∀ g ∈ c.store.groupsOf r.id, t ∉ g.targets)
    (hQ : ∀ r' c', Settled c' → c'.store.rollout? r'.id = some r' → r'.state = .running →
      Q r' c') :
    Operation.Orderly allowed (extend fence last added now) Q c := by
  have hmem := List.mem_of_getLast? hlast
  obtain ⟨hstored, hof⟩ := h.sound.mem_groupsOf.1 hmem
  have happend := appendTargets_run h.sound.toKeyed hstored (by rw [hof]; exact hr) hnodup
    fun t ht => hfresh t ht last hmem
  refine .bind (.mapError (.commit_run h happend hm fun c' hc' hs => ?_))
  have hrow : c'.store.rollout? r.id =
      some { r with totalTargets := r.totalTargets + added.length } := by
    rw [hs, withProgress, rollout?_withGroups, rollout?_withRollout, if_pos rfl]
  dsimp only
  split
  · rename_i hgrun
    have hgroup : last.joined added ∈ c'.store.groupsOf r.id := by
      refine hc'.sound.mem_groupsOf.2 ⟨?_, hof⟩
      rw [hs, withProgress, withGroups, List.foldl_cons, List.foldl_nil, group?_withGroup,
        if_pos rfl]
    have hmembers : added.Sublist (last.joined added).targets :=
      List.sublist_append_right last.targets added
    refine .bind (issue_orderly hissue hc' hrow hrun hgroup (.inl hgrun) hmembers
      fun issued c'' hc'' hs' _ => .pure (hQ _ c'' hc'' ?_ hrun))
    rw [rollout?, hs'.rollouts, ← rollout?, rollout?_issued]
    exact hrow
  · exact .pure (hQ _ c' hc' hrow hrun)

/-- **Resolving a live rollout again is safe.** -/
theorem refresh_orderly (hresolver : live.resolver.Calm) (hissue : allowed .issue)
    (hjoin : allowed (.join live.quota)) (h : Settled c) (id : RolloutId) :
    Operation.Orderly allowed (live.refresh fence id now) (fun _ => Settled) c := by
  have hstamp : ∀ (r : Rollout) (c : Chronicle) (n : Nat), Settled c →
      c.store.rollout? r.id = some r → r.state = .running →
      Operation.Orderly allowed (do
        saveRollout fence { r with lastResolvedAt := now }
        return n) (fun _ => Settled) c := fun r c n h hr hrun =>
    .bind (saveRollout_orderly h (.stamp hr hrun) fun c' hc' _ => .pure hc')
  refine .bind (requireRollout_orderly h fun r hr => ?_)
  obtain rfl : r.id = id := (h.sound.rollout_key hr).1
  split
  · rename_i hdue
    have hrun := running_of_isDue hdue
    refine .bind (.mapError (.read h fun groups hlist => ?_))
    rw [h.sound.listGroups_eq hr] at hlist
    obtain rfl := Except.ok.inj hlist
    refine .bind ((hresolver r.targetFilter).orderly h fun resolved c' h' hs => ?_)
    -- resolving the filter leaves the rollout and its groups as they were read
    have hrow : c'.store.rollout? r.id = some r := by
      rw [rollout?, hs.rollouts]
      exact hr
    have hgroups : c'.store.groupsOf r.id = c.store.groupsOf r.id := by
      rw [groupsOf, hs.groups, groupsOf]
    rw [← hgroups]
    dsimp only
    cases hgrowing : growing? live.quota r (c'.store.groupsOf r.id)
        (fresh (c'.store.groupsOf r.id) resolved).length with
    | none => exact hstamp r c' 0 h' hrow hrun
    | some last =>
      obtain ⟨hlast, hopen, hgrowth⟩ := growing?_eq_some hgrowing
      have hnodup := nodup_fresh (c'.store.groupsOf r.id) resolved
      have hfresh : ∀ t ∈ fresh (c'.store.groupsOf r.id) resolved,
          ∀ g ∈ c'.store.groupsOf r.id, t ∉ g.targets := fun t ht =>
        not_mem_targets_of_mem_fresh ht
      refine .bind (extend_orderly hissue h' hrow hlast
        (.join hjoin hrow hrun hlast hopen hnodup hfresh hgrowth) hrun hnodup hfresh
        fun r' c'' h'' hr' hrun' => ?_)
      exact hstamp r' c'' _ h'' hr' hrun'
  · exact .pure h

end StagedRollout.Live
