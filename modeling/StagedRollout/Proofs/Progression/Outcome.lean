/-
# Where a step ends

What one step of a scheduler makes of a store, as a function (`Progression.outcome`).  A write of
the step leaves a store with the same outcome: what was done is passed over when the step begins
anew, and the rest is done in the same way.  So an outcome is known from any of the stores on the
way, and a store at rest (`Progression.AtRest`) is its own.
-/
import StagedRollout.Proofs.Progression.Advance
import StagedRollout.Proofs.Store.Complete

namespace StagedRollout

open RolloutGroup Store Transaction

namespace Store

/-- The rollouts, groups and actions of a store, and nothing else. -/
def progress (s : Store) : Store :=
  { s with targets := .empty, filters := .empty, leases := .empty }

lemma sameProgress_iff {s s' : Store} : SameProgress s s' ↔ s'.progress = s.progress := by
  constructor
  · rintro ⟨hr, hg, ha⟩
    rw [progress, progress, hr, hg, ha]
  · intro h
    simp only [progress, Store.mk.injEq] at h
    exact ⟨h.1, h.2.1, h.2.2.1⟩

lemma progress_withGroups (s : Store) (groups : List RolloutGroup) :
    (s.withGroups groups).progress = s.progress.withGroups groups := by
  induction groups generalizing s with
  | nil => rfl
  | cons g rest ih => exact ih (s.withGroup g)

lemma progress_withActions (s : Store) (actions : List Action) :
    (s.withActions actions).progress = s.progress.withActions actions := by
  induction actions generalizing s with
  | nil => rfl
  | cons a rest ih => exact ih (s.withAction a)

lemma progress_withProgress (s : Store) (r : Rollout) (groups : List RolloutGroup) :
    (s.withProgress r groups).progress = s.progress.withProgress r groups :=
  progress_withGroups (s.withRollout r) groups

lemma progress_issued (s : Store) (g : RolloutGroup) (actions : List Action) (now : Nat) :
    (s.issued g actions now).progress = s.progress.issued g actions now :=
  congrArg (fun s' : Store => s'.withGroup _) (progress_withActions s (s.missing actions))

lemma withRollout_withRollout (s : Store) {r r' : Rollout} (h : r'.id = r.id) :
    (s.withRollout r).withRollout r' = s.withRollout r' := by
  have hput : Table.put (Table.put s.rollouts r.id r) r'.id r' = Table.put s.rollouts r'.id r' := by
    refine OrderedMap.ext_find? fun key => ?_
    simp only [Table.put, OrderedMap.find?_insert, h]
    split <;> rfl
  rw [withRollout, withRollout, withRollout]
  simp only [hput]

end Store

namespace Progression

variable {s : Store} {now : Nat} {r : Rollout} {g : RolloutGroup}

/-! ## The outcome -/

/-- The actions for the members of a group. -/
def orders (now : Nat) (r : Rollout) (g : RolloutGroup) : List Action :=
  g.targets.map (newAction r g now)

/-- A group with its actions, and the store behind them. -/
def staffed (now : Nat) (r : Rollout) (g : RolloutGroup) (s : Store) : RolloutGroup × Store :=
  if IsStaffed g then (g, s)
  else (begunWith g (s.missing (orders now r g)) now, s.issued g (orders now r g) now)

/-- The store behind a walk over groups of a running rollout. -/
def outcomeOver (now : Nat) (r : Rollout) : List RolloutGroup → Store → Store
  | [], s =>
    match r.apply? .allGroupsFinished now with
    | some r => s.withRollout r
    | none => s
  | g :: rest, s =>
    if g.releasesSuccessor then outcomeOver now r rest s
    else if g.state = .error then s
    else
      let (g, s) := staffed now r g s
      match g.settle? g.verdict now with
      | none => s
      | some settled =>
        if g.verdict = .failed then
          match r.apply? (.groupFailed g.errorAction) now with
          | some r => s.withProgress { r with lastError := some (failureText g) } [settled]
          | none => s
        else outcomeOver now r rest (s.withGroup settled)

/-- The running rollout that a step works on. -/
def taken? (now : Nat) (r : Rollout) : Option Rollout :=
  match r.state with
  | .ready =>
    if r.startPolicy.isDue now then do
      let r ← r.apply? .start now
      r.apply? .started now
    else none
  | .starting => r.apply? .started now
  | .running => some r
  | _ => none

/-- The store behind a step for a rollout. -/
def outcome (id : RolloutId) (now : Nat) (s : Store) : Store :=
  match s.rollout? id with
  | none => s
  | some r =>
    if r.deleted then s
    else
      match taken? now r with
      | none => s
      | some r => outcomeOver now r (s.groupsOf id) (s.withRollout r)

/-- A step does nothing: the rollout is not at work, or its current group is stuck or goes on. -/
def AtRest (id : RolloutId) (now : Nat) (s : Store) : Prop :=
  ∀ r, s.rollout? id = some r → r.deleted = false →
    taken? now r = none ∨ r.state = .running ∧ ∃ front g rest,
      s.groupsOf id = front ++ g :: rest ∧ (∀ x ∈ front, x.releasesSuccessor = true) ∧
        (g.IsStuck ∨ IsStaffed g ∧ g.settle? g.verdict now = none)

/-! ## Nothing but progress matters -/

lemma staffed_progress (now : Nat) (r : Rollout) (g : RolloutGroup) (s : Store) :
    staffed now r g s.progress = ((staffed now r g s).1, (staffed now r g s).2.progress) := by
  unfold staffed
  split
  · rfl
  · rw [progress_issued]
    rfl

lemma outcomeOver_progress (groups : List RolloutGroup) (s : Store) :
    outcomeOver now r groups s.progress = (outcomeOver now r groups s).progress := by
  induction groups generalizing s with
  | nil =>
    unfold outcomeOver
    split <;> rfl
  | cons g rest ih =>
    rw [outcomeOver, outcomeOver, staffed_progress]
    split
    · exact ih s
    · split
      · rfl
      generalize staffed now r g s = p
      dsimp only
      cases p.1.settle? p.1.verdict now with
      | none => rfl
      | some settled =>
        dsimp only
        split
        · cases r.apply? (.groupFailed p.1.errorAction) now with
          | none => rfl
          | some r' => exact (progress_withProgress p.2 _ _).symm
        · exact ih (p.2.withGroup settled)

lemma outcome_progress (id : RolloutId) (now : Nat) (s : Store) :
    outcome id now s.progress = (outcome id now s).progress := by
  unfold outcome
  change (match s.rollout? id with | none => _ | some r => _) = _
  cases s.rollout? id with
  | none => rfl
  | some r =>
    dsimp only
    split
    · rfl
    · cases taken? now r with
      | none => rfl
      | some r' => exact outcomeOver_progress (s.groupsOf id) (s.withRollout r')

/-- Stores with the same progress have the same outcome. -/
lemma outcome_congr {s' : Store} (h : SameProgress s s') (id : RolloutId) (now : Nat) :
    (outcome id now s').progress = (outcome id now s).progress := by
  rw [← outcome_progress, ← outcome_progress, sameProgress_iff.1 h]

lemma outcomeOver_congr {s' : Store} (h : SameProgress s s') (groups : List RolloutGroup) :
    (outcomeOver now r groups s').progress = (outcomeOver now r groups s).progress := by
  rw [← outcomeOver_progress, ← outcomeOver_progress, sameProgress_iff.1 h]

/-! ## Walking on -/

lemma outcomeOver_of_releases (h : g.releasesSuccessor = true) (rest : List RolloutGroup)
    (s : Store) : outcomeOver now r (g :: rest) s = outcomeOver now r rest s := by
  rw [outcomeOver, if_pos h]

lemma outcomeOver_append {front : List RolloutGroup}
    (h : ∀ x ∈ front, x.releasesSuccessor = true) (rest : List RolloutGroup) (s : Store) :
    outcomeOver now r (front ++ rest) s = outcomeOver now r rest s := by
  induction front with
  | nil => rfl
  | cons x front ih =>
    obtain ⟨hx, hfront⟩ := List.forall_mem_cons.1 h
    rw [List.cons_append, outcomeOver_of_releases hx]
    exact ih hfront

lemma outcomeOver_of_isStuck (h : g.IsStuck) (rest : List RolloutGroup) (s : Store) :
    outcomeOver now r (g :: rest) s = s := by
  have hnot : g.releasesSuccessor = false := by simp [releasesSuccessor, h.1, h.2]
  rw [outcomeOver, if_neg (by simp [hnot]), if_pos h.1]

lemma staffed_of_isStaffed (h : IsStaffed g) (s : Store) : staffed now r g s = (g, s) := if_pos h

lemma sameRoster_staffed (now : Nat) (r : Rollout) (g : RolloutGroup) (s : Store) :
    SameRoster g (staffed now r g s).1 := by
  unfold staffed
  split
  · exact .refl g
  · exact sameRoster_begunWith g _ now

/-- A running group all of whose members have an action is judged. -/
lemma outcomeOver_of_isStaffed (h : IsStaffed g) (rest : List RolloutGroup) (s : Store) :
    outcomeOver now r (g :: rest) s =
      match g.settle? g.verdict now with
      | none => s
      | some settled =>
        if g.verdict = .failed then
          match r.apply? (.groupFailed g.errorAction) now with
          | some r => s.withProgress { r with lastError := some (failureText g) } [settled]
          | none => s
        else outcomeOver now r rest (s.withGroup settled) := by
  rw [outcomeOver, if_neg (by simp [releasesSuccessor, h.1]), if_neg (by simp [h.1]),
    staffed_of_isStaffed h]

/-- A group may get its actions before or on the way. -/
lemma outcomeOver_staffed (hstate : g.state = .running ∨ g.state = .scheduled)
    (h : IsStaffed (staffed now r g s).1) (rest : List RolloutGroup) :
    outcomeOver now r ((staffed now r g s).1 :: rest) (staffed now r g s).2 =
      outcomeOver now r (g :: rest) s := by
  rw [outcomeOver_of_isStaffed h]
  rcases hstate with hstate | hstate <;>
    rw [outcomeOver, if_neg (by simp [releasesSuccessor, hstate]), if_neg (by simp [hstate])]

/-- **A store at rest is its own outcome.** -/
theorem outcome_of_atRest {id : RolloutId} (h : Sound s) (hrest : AtRest id now s) :
    outcome id now s = s := by
  unfold outcome
  cases hr : s.rollout? id with
  | none => rfl
  | some r =>
    dsimp only
    split
    · rfl
    rename_i hd
    rcases hrest r hr (Bool.not_eq_true _ ▸ hd) with
      hnone | ⟨hrun, front, g, rest, hgroups, hfront, hg⟩
    · rw [hnone]
    · have htaken : taken? now r = some r := by rw [taken?, hrun]
      rw [htaken]
      dsimp only
      obtain rfl := (h.rollout_key hr).1
      rw [withRollout_eq_self hr, hgroups, outcomeOver_append hfront]
      rcases hg with hstuck | ⟨hstaffed, hnone⟩
      · exact outcomeOver_of_isStuck hstuck rest s
      · rw [outcomeOver_of_isStaffed hstaffed, hnone]

end Progression

end StagedRollout
