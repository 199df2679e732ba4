/-
# Changes of rollouts and their groups

The writes of a rollout's row and of groups of it that keep a sound store sound: a group that is
running ends or fails with its rollout, devices join the last group, and a paused rollout goes on
behind an acknowledgement of its failed groups.  Each of them is an instance of
`Sound.withProgress`, most of them with a single group (`Sound.withOne`).
-/
import StagedRollout.Operator.Command
import StagedRollout.Proofs.Store.Recount

namespace StagedRollout

open RolloutGroup

namespace Store

variable {s : Store}

/-! ## Rows of rollouts -/

/-- A rollout may be written that agrees with the groups that it has. -/
lemma Sound.withRow {r r' : Rollout} (h : Sound s) (hr : s.rollout? r.id = some r)
    (hrow : r'.id = r.id) (hagrees : r'.AgreesWith (s.groupsOf r.id)) :
    Sound (s.withRollout r') := by
  have hsame : (s.groupsOf r'.id).map (replacedBy []) = s.groupsOf r.id := by
    rw [hrow]
    exact List.map_id' _
  exact h.withProgress (hrow ▸ hr) .nil (fun _ hg => absurd hg List.not_mem_nil)
    (fun _ hg => absurd hg List.not_mem_nil) (by rw [hsame]; exact hagrees)

section

variable {r r' : Rollout} {g g' : RolloutGroup}

/-- A group of a running rollout that runs is the current one, and no group is stuck. -/
lemma Sound.current_of_running (h : Sound s) (hr : s.rollout? r.id = some r)
    (hrun : r.state = .running) (hg : g ∈ s.groupsOf r.id) (hgrun : g.state = .running) :
    g.IsCurrent ∧ ∀ x ∈ s.groupsOf r.id, ¬ x.IsStuck := by
  have hagrees := h.agrees hr
  have hd := hagrees.deleted_eq_false_of_running hrun
  have hfits := hagrees.fits hd
  rw [hrun] at hfits
  exact ⟨(hagrees.staged hd).current_of_running hg hgrun, hfits.1⟩

/-- A group takes the place of another one among groups that stay as they are. -/
def Replacing (groups : List RolloutGroup) (g g' : RolloutGroup)
    (f : RolloutGroup → RolloutGroup) : Prop :=
  ∀ x ∈ groups, (x = g ∧ f x = g') ∨ (x ≠ g ∧ f x = x)

lemma Replacing.follows {groups : List RolloutGroup} {f : RolloutGroup → RolloutGroup}
    (hf : Replacing groups g g' f) (hroster : SameRoster g g') (hfollows : Follows g g') :
    ∀ x ∈ groups, SameRoster x (f x) ∧ Follows x (f x) := by
  intro x hx
  rcases hf x hx with ⟨rfl, heq⟩ | ⟨-, heq⟩
  · rw [heq]
    exact ⟨hroster, hfollows⟩
  · rw [heq]
    exact ⟨SameRoster.refl x, .inl (SameStage.refl x)⟩

/-- **One group and its rollout may be written** if the rollout agrees with its groups once the
group has taken its place among them. -/
theorem Sound.withOne (h : Sound s) (hr : s.rollout? r.id = some r) (hrow : r'.id = r.id)
    (hg : g ∈ s.groupsOf r.id) (hid : g'.id = g.id) (hindex : g'.index = g.index)
    (htargets : ∀ t ∈ g.targets, t ∈ g'.targets) (hof : g'.rolloutId = g.rolloutId)
    (hcounts : g'.counts = g.counts)
    (hagrees : ∀ f, Replacing (s.groupsOf r.id) g g' f →
      r'.AgreesWith ((s.groupsOf r.id).map f)) : Sound (s.withProgress r' [g']) := by
  obtain ⟨hstored, hrid⟩ := h.mem_groupsOf.1 hg
  have hold : s.group? g'.id = some g := hid ▸ hstored
  refine h.withProgress (hrow ▸ hr) (.singleton hold hof hindex htargets) (fun x hx => ?_)
    (fun x hx old hx' => ?_) ?_
  · obtain rfl := List.mem_singleton.1 hx
    exact hof.trans (hrid.trans hrow.symm)
  · obtain rfl := List.mem_singleton.1 hx
    exact hcounts.trans (congrArg _ (Option.some.inj (hold.symm.trans hx')))
  · rw [hrow]
    exact hagrees _ fun x hx => h.toKeyed.replacedBy_eq hx hold

/-- A running group may be finished. -/
lemma Sound.ended (h : Sound s) (hr : s.rollout? r.id = some r) (hrun : r.state = .running)
    (hg : g ∈ s.groupsOf r.id) (hgrun : g.state = .running) (hroster : SameRoster g g')
    (hof : g'.rolloutId = g.rolloutId) (hcounts : g'.counts = g.counts)
    (hend : g'.state = .finished) : Sound (s.withGroup g') := by
  obtain ⟨hcurrent, hstuck⟩ := h.current_of_running hr hrun hg hgrun
  rw [← withProgress_eq_withGroup hr]
  refine h.withOne hr rfl hg hroster.id hroster.index (fun t ht => hroster.targets ▸ ht) hof
    hcounts fun f hf => (h.agrees hr).progress hrun (hf.follows hroster (.inr ⟨hcurrent, .inr ?_⟩))
      fun x hx => ?_
  · simp [releasesSuccessor, hend]
  · rcases hf x hx with ⟨rfl, heq⟩ | ⟨-, heq⟩
    · rw [heq]
      exact fun hs => by simp [IsStuck, hend] at hs
    · rw [heq]
      exact hstuck x hx

/-- A running group may fail together with its rollout. -/
lemma Sound.failed {now : Nat} (h : Sound s) (hr : s.rollout? r.id = some r)
    (happly : r.apply? (.groupFailed g.errorAction) now = some r') (hg : g ∈ s.groupsOf r.id)
    (hgrun : g.state = .running) (hroster : SameRoster g g') (hof : g'.rolloutId = g.rolloutId)
    (hcounts : g'.counts = g.counts) (hend : g'.state = .error)
    (hack : g'.errorAcknowledged = g.errorAcknowledged)
    (haction : g'.errorAction = g.errorAction) (reason : String) :
    Sound (s.withProgress { r' with lastError := some reason } [g']) := by
  have hrun := Rollout.running_of_groupFailed happly
  obtain ⟨hcurrent, hstuck⟩ := h.current_of_running hr hrun hg hgrun
  have hs' : g'.IsStuck := ⟨hend, hack.trans hcurrent.2⟩
  have hid : r'.id = r.id := Rollout.id_of_apply happly
  have hrow : ({ r' with lastError := some reason } : Rollout).id = r.id := hid
  refine h.withOne hr hrow hg hroster.id hroster.index
    (fun t ht => hroster.targets ▸ ht) hof hcounts fun f hf => ?_
  refine (h.agrees hr).fail happly
    (hf.follows hroster (.inr ⟨hcurrent, .inl (Staged.current_of_stuck hs')⟩)) ⟨g, hg, ?_⟩
    (fun x hx hsx => ?_) reason
  · rcases hf g hg with ⟨-, heq⟩ | ⟨hne, -⟩
    · rw [heq]
      exact hs'
    · exact absurd rfl hne
  · rcases hf x hx with ⟨rfl, heq⟩ | ⟨-, heq⟩
    · rw [heq]
      exact haction
    · rw [heq] at hsx
      exact absurd hsx (hstuck x hx)

/-- Devices that are new to a running rollout may join its last group. -/
lemma Sound.joined {added : List TargetId} (h : Sound s) (hr : s.rollout? r.id = some r)
    (hlast : (s.groupsOf r.id).getLast? = some g) (hnodup : added.Nodup)
    (hfresh : ∀ t ∈ added, ∀ x ∈ s.groupsOf r.id, t ∉ x.targets) :
    Sound (s.withProgress { r with totalTargets := r.totalTargets + added.length }
      [g.joined added]) := by
  refine h.withOne hr rfl (List.mem_of_getLast? hlast) rfl rfl
    (fun t ht => List.mem_append_left _ ht) rfl rfl fun f hf => ?_
  refine (h.agrees hr).join (h.groupsOf_index_lt r.id) hlast hnodup hfresh ?_ fun x hx hne => ?_
  · rcases hf g (List.mem_of_getLast? hlast) with ⟨-, heq⟩ | ⟨hne, -⟩
    · exact heq
    · exact absurd rfl hne
  · rcases hf x hx with ⟨rfl, -⟩ | ⟨-, heq⟩
    · exact absurd rfl hne
    · exact heq

end

/-! ## Acknowledgements -/

/-- A group whose failure an operator acknowledges when the rollout goes on. -/
def IsPausing (g : RolloutGroup) : Prop := g.IsStuck ∧ g.errorAction = .pause

instance (g : RolloutGroup) : Decidable (IsPausing g) := inferInstanceAs (Decidable (_ ∧ _))

lemma acknowledged_eq (groups : List RolloutGroup) :
    Operator.acknowledged groups =
      (groups.filter fun g => decide (IsPausing g)).map
        fun g => { g with errorAcknowledged := true } := by
  induction groups with
  | nil => rfl
  | cons g groups ih =>
    rw [Operator.acknowledged] at ih ⊢
    rw [List.filterMap_cons, ih]
    cases hack : g.errorAcknowledged <;> by_cases he : g.state = .error <;>
      by_cases hp : g.errorAction = .pause <;> simp [acknowledge?, IsPausing, IsStuck, hack, he, hp]

lemma mem_acknowledged {groups : List RolloutGroup} {x : RolloutGroup} :
    x ∈ Operator.acknowledged groups ↔
      ∃ g ∈ groups, IsPausing g ∧ x = { g with errorAcknowledged := true } := by
  rw [acknowledged_eq, List.mem_map]
  constructor
  · rintro ⟨g, hg, rfl⟩
    obtain ⟨hg, hp⟩ := List.mem_filter.1 hg
    exact ⟨g, hg, of_decide_eq_true hp, rfl⟩
  · rintro ⟨g, hg, hp, rfl⟩
    exact ⟨g, List.mem_filter.2 ⟨hg, decide_eq_true hp⟩, rfl⟩

lemma nodup_acknowledged {groups : List RolloutGroup} (hn : (groups.map (·.id)).Nodup) :
    ((Operator.acknowledged groups).map (·.id)).Nodup := by
  rw [acknowledged_eq, List.map_map]
  exact hn.sublist (List.filter_sublist.map _)

/-- What an acknowledgement makes of a group. -/
lemma replacedBy_acknowledged {groups : List RolloutGroup} {x : RolloutGroup}
    (hn : (groups.map (·.id)).Nodup) (hx : x ∈ groups) :
    replacedBy (Operator.acknowledged groups) x =
      if IsPausing x then { x with errorAcknowledged := true } else x := by
  split
  · rename_i hp
    exact replacedBy_of_mem (nodup_acknowledged hn) (mem_acknowledged.2 ⟨x, hx, hp, rfl⟩) rfl
  · rename_i hp
    refine replacedBy_of_notMem fun g hg heq => hp ?_
    obtain ⟨y, hy, hpy, rfl⟩ := mem_acknowledged.1 hg
    obtain rfl := List.inj_on_of_nodup_map hn hy hx heq
    exact hpy

/-- **A paused rollout goes on behind an acknowledgement of its failed groups.** -/
theorem Sound.resumed {r r' : Rollout} {now : Nat} (h : Sound s)
    (hr : s.rollout? r.id = some r) (happly : r.apply? .resume now = some r') :
    Sound (s.withProgress r' (Operator.acknowledged (s.groupsOf r.id))) := by
  have hagrees := h.agrees hr
  have hn := h.nodup_groupsOf r.id
  have hrow := Rollout.id_of_apply happly
  have hpaused : r.state = .paused := by
    have hleads := (Rollout.apply?_eq_some happly).1
    generalize r.state = source at hleads ⊢
    generalize r'.state = dest at hleads
    cases hleads
    rfl
  have hfits := hagrees.fits (hagrees.deleted_eq_false (by simp [hpaused]) (by simp [hpaused]))
  rw [hpaused] at hfits
  refine h.withProgress (hrow ▸ hr) ⟨nodup_acknowledged hn, fun g hg => ?_⟩ (fun g hg => ?_)
    (fun g hg old hold => ?_) ?_
  · obtain ⟨x, hx, -, rfl⟩ := mem_acknowledged.1 hg
    exact ⟨x, (h.mem_groupsOf.1 hx).1, rfl, rfl, fun _ ht => ht⟩
  · obtain ⟨x, hx, -, rfl⟩ := mem_acknowledged.1 hg
    exact (h.mem_groupsOf.1 hx).2.trans hrow.symm
  · obtain ⟨x, hx, -, rfl⟩ := mem_acknowledged.1 hg
    have hsame : x = old := Option.some.inj ((h.mem_groupsOf.1 hx).1.symm.trans hold)
    change x.counts = old.counts
    rw [hsame]
  rw [hrow]
  refine hagrees.resume happly (fun x hx => ?_) fun x hx => ?_
  · rw [replacedBy_acknowledged hn hx]
    split
    · rename_i hp
      refine ⟨⟨rfl, rfl, rfl, rfl⟩, .inr ⟨Staged.current_of_stuck hp.1, .inr ?_⟩⟩
      simp [releasesSuccessor, hp.1.1]
    · exact ⟨SameRoster.refl x, .inl (SameStage.refl x)⟩
  -- in a paused rollout only groups that pause it can be stuck
  · rw [replacedBy_acknowledged hn hx]
    split
    · exact fun hs => absurd hs.2 (by simp)
    · rename_i hp
      exact fun hs => hp ⟨hs, hfits.2 x hx hs⟩

end Store

end StagedRollout
