/-
# The shape of a progression

The groups of a rollout, in the order of their indices, fall into three parts: groups that let
their successor start, then at most one group that is running or has failed, then groups that
nobody has touched (`Staged`).  A group may be replaced by one that follows it
(`RolloutGroup.Follows`) whatever its neighbours are; only a group that starts has to look at the
groups before it.
-/
import Mathlib
import StagedRollout.Rollout.Group

namespace StagedRollout

namespace RolloutGroup

/-- The group has failed and no operator has acknowledged it. -/
def IsStuck (g : RolloutGroup) : Prop := g.state = .error ∧ g.errorAcknowledged = false

/-- The group is the one that its rollout is at. -/
def IsCurrent (g : RolloutGroup) : Prop :=
  (g.state = .running ∨ g.state = .error) ∧ g.errorAcknowledged = false

/-- The group waits and has never had an action. -/
def IsUntouched (g : RolloutGroup) : Prop :=
  g.state = .scheduled ∧ g.counts = .zero ∧ g.errorAcknowledged = false

instance (g : RolloutGroup) : Decidable g.IsStuck := inferInstanceAs (Decidable (_ ∧ _))

variable {g : RolloutGroup}

lemma IsCurrent.not_releases (h : g.IsCurrent) : g.releasesSuccessor = false := by
  rcases h with ⟨h | h, ha⟩ <;> simp [releasesSuccessor, h, ha]

lemma IsUntouched.not_releases (h : g.IsUntouched) : g.releasesSuccessor = false := by
  simp [releasesSuccessor, h.1]

lemma IsUntouched.not_current (h : g.IsUntouched) : ¬ g.IsCurrent := by
  rintro ⟨hc | hc, -⟩ <;> simp [h.1] at hc

/-- Two groups at the same point of the progression: state and acknowledgement are the same, and
the counters too where the group waits. -/
structure SameStage (g g' : RolloutGroup) : Prop where
  state : g'.state = g.state
  errorAcknowledged : g'.errorAcknowledged = g.errorAcknowledged
  errorAction : g'.errorAction = g.errorAction
  counts : g.state = .scheduled → g'.counts = g.counts

/-- Two groups with the same place and the same members. -/
structure SameRoster (g g' : RolloutGroup) : Prop where
  id : g'.id = g.id
  index : g'.index = g.index
  targets : g'.targets = g.targets
  targetCount : g'.targetCount = g.targetCount

variable {g' : RolloutGroup}

lemma SameStage.refl (g : RolloutGroup) : SameStage g g := ⟨rfl, rfl, rfl, fun _ => rfl⟩

lemma SameRoster.refl (g : RolloutGroup) : SameRoster g g := ⟨rfl, rfl, rfl, rfl⟩

lemma SameStage.releases (h : SameStage g g') : g'.releasesSuccessor = g.releasesSuccessor := by
  simp only [releasesSuccessor, h.state, h.errorAcknowledged]

lemma SameStage.stuck_iff (h : SameStage g g') : g'.IsStuck ↔ g.IsStuck := by
  simp only [IsStuck, h.state, h.errorAcknowledged]

lemma SameStage.current (h : SameStage g g') (hg : g.IsCurrent) : g'.IsCurrent := by
  simpa only [IsCurrent, h.state, h.errorAcknowledged] using hg

lemma SameStage.untouched (h : SameStage g g') (hg : g.IsUntouched) : g'.IsUntouched :=
  ⟨h.state.trans hg.1, (h.counts hg.1).trans hg.2.1, h.errorAcknowledged.trans hg.2.2⟩

/-- The second group may take the place of the first one whatever its neighbours are: it is at the
same point, or the first one is current and the second one is current or lets its successor
start. -/
def Follows (g g' : RolloutGroup) : Prop :=
  SameStage g g' ∨ g.IsCurrent ∧ (g'.IsCurrent ∨ g'.releasesSuccessor = true)

lemma Follows.untouched (h : Follows g g') (hg : g.IsUntouched) : g'.IsUntouched := by
  rcases h with h | ⟨hc, -⟩
  · exact h.untouched hg
  · exact absurd hc hg.not_current

lemma Follows.current (h : Follows g g') (hg : g.IsCurrent) :
    g'.IsCurrent ∨ g'.releasesSuccessor = true := by
  rcases h with h | ⟨-, h⟩
  · exact .inl (h.current hg)
  · exact h

lemma Follows.releases (h : Follows g g') (hg : g.releasesSuccessor = true) :
    g'.releasesSuccessor = true := by
  rcases h with h | ⟨hc, -⟩
  · exact h.releases.trans hg
  · simp [hc.not_releases] at hg

end RolloutGroup

open RolloutGroup

/-- Groups that let their successor start, then at most one current group, then untouched
groups. -/
inductive Staged : List RolloutGroup → Prop
  | untouched {groups : List RolloutGroup} : (∀ g ∈ groups, g.IsUntouched) → Staged groups
  | current {g : RolloutGroup} {rest : List RolloutGroup} :
      g.IsCurrent → (∀ x ∈ rest, x.IsUntouched) → Staged (g :: rest)
  | passed {g : RolloutGroup} {rest : List RolloutGroup} :
      g.releasesSuccessor = true → Staged rest → Staged (g :: rest)

namespace Staged

variable {g : RolloutGroup} {front rest groups : List RolloutGroup}

/-- The three parts. -/
lemma parts (h : Staged groups) : ∃ passed current waiting, groups = passed ++ current ++ waiting ∧
    (∀ g ∈ passed, g.releasesSuccessor = true) ∧ current.length ≤ 1 ∧
    (∀ g ∈ current, g.IsCurrent) ∧ ∀ g ∈ waiting, g.IsUntouched := by
  induction h with
  | @untouched groups h => exact ⟨[], [], groups, rfl, by simp, by simp, by simp, h⟩
  | @current g rest hg hrest => exact ⟨[], [g], rest, rfl, by simp, by simp, by simpa, hrest⟩
  | @passed g rest hg _ ih =>
    obtain ⟨passed, current, waiting, rfl, hp, hc⟩ := ih
    refine ⟨g :: passed, current, waiting, rfl, ?_, hc⟩
    rintro x hx
    rcases List.mem_cons.1 hx with rfl | hx
    · exact hg
    · exact hp x hx

lemma prepend (hfront : ∀ x ∈ front, x.releasesSuccessor = true) (h : Staged rest) :
    Staged (front ++ rest) := by
  induction front with
  | nil => exact h
  | cons x front ih =>
    exact passed (hfront x List.mem_cons_self) (ih fun y hy => hfront y (List.mem_cons_of_mem _ hy))

/-- Behind groups that let their successor start there are again the three parts. -/
lemma of_prepend (hfront : ∀ x ∈ front, x.releasesSuccessor = true)
    (h : Staged (front ++ rest)) : Staged rest := by
  induction front with
  | nil => exact h
  | cons x front ih =>
    have hx := hfront x List.mem_cons_self
    have htail := ih fun y hy => hfront y (List.mem_cons_of_mem _ hy)
    cases h with
    | untouched h =>
      have hux : x.IsUntouched := h x List.mem_cons_self
      simp [hux.not_releases] at hx
    | current hc _ => simp [hc.not_releases] at hx
    | passed _ h => exact htail h

/-- Behind a group that waits all groups wait. -/
lemma behind_waiting (h : Staged (g :: rest)) (hg : g.state = .scheduled) :
    g.IsUntouched ∧ ∀ x ∈ rest, x.IsUntouched := by
  cases h with
  | untouched h => exact ⟨h g List.mem_cons_self, fun x hx => h x (List.mem_cons_of_mem _ hx)⟩
  | current hc _ => rcases hc with ⟨hc | hc, -⟩ <;> simp [hg] at hc
  | passed hp _ => simp [releasesSuccessor, hg] at hp

/-- A group that is current, or lets its successor start, may stand between groups that let their
successor start and untouched ones. -/
lemma replace (hfront : ∀ x ∈ front, x.releasesSuccessor = true)
    (hrest : ∀ x ∈ rest, x.IsUntouched) (hg : g.IsCurrent ∨ g.releasesSuccessor = true) :
    Staged (front ++ g :: rest) := by
  refine prepend hfront ?_
  rcases hg with hg | hg
  · exact current hg hrest
  · exact passed hg (untouched hrest)

/-- Every group is in one of the three parts. -/
lemma cases_of_mem (h : Staged groups) (hg : g ∈ groups) :
    g.releasesSuccessor = true ∨ g.IsCurrent ∨ g.IsUntouched := by
  induction h with
  | @untouched groups h => exact .inr (.inr (h g hg))
  | @current x rest hx hrest =>
    rcases List.mem_cons.1 hg with rfl | hg
    · exact .inr (.inl hx)
    · exact .inr (.inr (hrest g hg))
  | @passed x rest hx _ ih =>
    rcases List.mem_cons.1 hg with rfl | hg
    · exact .inl hx
    · exact ih hg

/-- A group that runs in staged groups is the current one. -/
lemma current_of_running (h : Staged groups) (hg : g ∈ groups) (hrun : g.state = .running) :
    g.IsCurrent := by
  rcases h.cases_of_mem hg with hr | hc | hu
  · simp [releasesSuccessor, hrun] at hr
  · exact hc
  · simp [hu.1] at hrun

/-- Groups wait, run or have ended; none of them is in between. -/
lemma state_ne_ready (h : Staged groups) (hg : g ∈ groups) : g.state ≠ .ready := by
  intro hready
  rcases h.cases_of_mem hg with hr | ⟨hc | hc, -⟩ | hu
  · simp [releasesSuccessor, hready] at hr
  · simp [hready] at hc
  · simp [hready] at hc
  · simp [hu.1] at hready

/-- A group that waits in staged groups has never had an action. -/
lemma untouched_of_scheduled (h : Staged groups) (hg : g ∈ groups) (hs : g.state = .scheduled) :
    g.IsUntouched := by
  rcases h.cases_of_mem hg with hr | ⟨hc | hc, -⟩ | hu
  · simp [releasesSuccessor, hs] at hr
  · simp [hs] at hc
  · simp [hs] at hc
  · exact hu

/-- A group that has failed without an acknowledgement is the current one. -/
lemma current_of_stuck (hs : g.IsStuck) : g.IsCurrent := ⟨.inr hs.1, hs.2⟩

/-- Groups may be replaced by groups that follow them. -/
lemma map {f : RolloutGroup → RolloutGroup} (h : Staged groups)
    (hf : ∀ g ∈ groups, Follows g (f g)) : Staged (groups.map f) := by
  have huntouched : ∀ {l : List RolloutGroup}, (∀ x ∈ l, Follows x (f x)) →
      (∀ x ∈ l, x.IsUntouched) → ∀ x ∈ l.map f, x.IsUntouched := by
    intro l hl hu x hx
    obtain ⟨y, hy, rfl⟩ := List.mem_map.1 hx
    exact (hl y hy).untouched (hu y hy)
  induction h with
  | @untouched groups h => exact untouched (huntouched hf h)
  | @current g rest hg hrest =>
    have htail := huntouched (fun x hx => hf x (List.mem_cons_of_mem _ hx)) hrest
    rcases (hf g List.mem_cons_self).current hg with hc | hr
    · exact current hc htail
    · exact passed hr (untouched htail)
  | @passed g rest hg _ ih =>
    exact passed ((hf g List.mem_cons_self).releases hg)
      (ih fun x hx => hf x (List.mem_cons_of_mem _ hx))

end Staged

end StagedRollout
