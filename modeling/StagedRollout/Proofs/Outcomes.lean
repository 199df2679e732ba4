/-
# Recorded outcomes stay justified

A group is judged once, but its devices go on reporting.  What was recorded stays true of the
counters all the same (`Run.outcomes_justified`): actions that have ended do not change, so
successes and failures become no fewer; a group that has ended gets no more actions; and a group
that is degraded has none left that could report.
-/
import StagedRollout.Proofs.Invariants
import StagedRollout.Proofs.Store.Changes

namespace StagedRollout

namespace RolloutGroup

/-- What is recorded of a group is true of its counters as they are now. -/
structure Justified (g : RolloutGroup) : Prop where
  success : g.outcome = some .success →
    g.counts.total = 0 ∨
      g.successCondition.isMet g.counts.finishedSuccess g.counts.total = true
  degraded : g.outcome = some .degraded →
    g.counts.pending = 0 ∧
      g.successCondition.isMet g.counts.finishedSuccess g.counts.total = false ∧
      ∀ condition, g.errorCondition = some condition →
        g.counts.finishedError = 0 ∨
          condition.isMet g.counts.finishedError g.counts.total = false
  error : g.state = .error →
    ∃ condition, g.errorCondition = some condition ∧ 0 < g.counts.finishedError ∧
      condition.isMet g.counts.finishedError g.counts.total = true

/-- What is recorded of a group is justified, and a group with an outcome is finished. -/
structure Upheld (g : RolloutGroup) : Prop extends Justified g where
  finished : g.outcome.isSome = true → g.state = .finished

variable {g g' : RolloutGroup}

/-! ## One group -/

/-- There is nothing to justify in a group without an outcome that has not failed. -/
lemma upheld_of_open (hstate : g.state ≠ .error) (hopen : g.outcome = none) : Upheld g where
  success h := by simp [hopen] at h
  degraded h := by simp [hopen] at h
  error h := absurd h hstate
  finished h := by simp [hopen] at h

/-- A group that has not ended has no outcome yet. -/
lemma Upheld.outcome_eq_none (h : Upheld g) (hstate : g.state ≠ .finished) : g.outcome = none := by
  rcases houtcome : g.outcome with _ | outcome
  · rfl
  · exact absurd (h.finished (by simp [houtcome])) hstate

/-- **Reports justify what is recorded ever more.** -/
lemma Upheld.countsOn (h : Upheld g) (hc : CountsOn g g') : Upheld g' := by
  obtain ⟨hcounts, hrest⟩ := hc
  generalize g'.counts = counts at hcounts hrest
  subst hrest
  refine ⟨⟨fun hsuccess => ?_, fun hdegraded => ?_, fun herror => ?_⟩, h.finished⟩
  · change counts.total = 0 ∨ g.successCondition.isMet counts.finishedSuccess counts.total = true
    rw [hcounts.total]
    exact (h.success hsuccess).imp_right (Condition.isMet_mono hcounts.success)
  -- nothing is pending, so nothing has changed
  · have hold := h.degraded hdegraded
    rw [hcounts.still hold.1]
    exact hold
  · obtain ⟨condition, hcondition, hfailed, hmet⟩ := h.error herror
    refine ⟨condition, hcondition, Nat.lt_of_lt_of_le hfailed hcounts.error, ?_⟩
    change condition.isMet counts.finishedError counts.total = true
    rw [hcounts.total]
    exact Condition.isMet_mono hcounts.error hmet

/-- What a verdict records is justified when it is recorded. -/
lemma upheld_of_settle? {now : Nat} (h : Upheld g) (hend : g.settle? g.verdict now = some g') :
    Upheld g' := by
  obtain ⟨hrun, state, outcome, hsettled, rfl⟩ := settle?_eq hend
  have hnone := h.outcome_eq_none (by simp [hrun])
  cases hverdict : g.verdict with
  | pending => simp [hverdict, settledBy] at hsettled
  | succeeded =>
    obtain ⟨rfl, rfl⟩ : GroupState.finished = state ∧ some GroupOutcome.success = outcome := by
      simpa [hverdict, settledBy] using hsettled
    refine ⟨⟨fun _ => StatusCounts.of_verdict_succeeded hverdict, fun h => ?_, fun h => ?_⟩,
      fun _ => rfl⟩ <;>
        simp at h
  | degraded =>
    obtain ⟨rfl, rfl⟩ : GroupState.finished = state ∧ some GroupOutcome.degraded = outcome := by
      simpa [hverdict, settledBy] using hsettled
    obtain ⟨hpending, hsuccess, herror⟩ := StatusCounts.of_verdict_degraded hverdict
    refine ⟨⟨fun h => by simp at h, fun _ => ⟨hpending, hsuccess, fun condition hcondition => ?_⟩,
      fun h => by simp at h⟩, fun _ => rfl⟩
    have hcondition : g.errorCondition = some condition := hcondition
    rw [hcondition] at herror
    simpa [errorMet, Nat.pos_iff_ne_zero, or_iff_not_imp_left] using herror
  | failed =>
    obtain ⟨rfl, rfl⟩ : GroupState.error = state ∧ none = outcome := by
      simpa [hverdict, settledBy] using hsettled
    refine ⟨⟨fun h => ?_, fun h => ?_, fun _ => ?_⟩, fun h => ?_⟩
    · simp at h
    · simp at h
    · exact errorMet_eq_true.1 (StatusCounts.of_verdict_failed hverdict)
    · simp at h

/-- **However a group goes on, what is recorded of it is justified.** -/
lemma Upheld.turn {allowed : Store.Intent → Prop} {state : RolloutState} (h : Upheld g)
    (hturn : Turn allowed state g g') : Upheld g' := by
  cases hturn with
  | @begun _ actions now _ hg =>
    -- a group gets actions before it has ended only
    rcases hg with hg | hg
    · have hnone := h.outcome_eq_none (by simp [hg])
      rw [Store.begunWith_of_running hg]
      exact upheld_of_open (by simp [hg]) hnone
    · have hnone := h.outcome_eq_none (by simp [hg])
      rw [Store.begunWith_of_scheduled hg]
      exact upheld_of_open (by simp) hnone
  | joined | acknowledged => exact ⟨⟨h.success, h.degraded, h.error⟩, h.finished⟩
  | judged _ hend => exact upheld_of_settle? h hend
  | triggered _ hend =>
    obtain ⟨-, rfl⟩ := trigger?_eq hend
    refine ⟨⟨fun h => ?_, fun h => ?_, fun h => ?_⟩, fun _ => rfl⟩ <;> simp at h

end RolloutGroup

/-! ## All groups -/

namespace Store

open RolloutGroup

variable {allowed : Intent → Prop} {s s' : Store}

/-- What is recorded of the groups of rollouts that are not deleted is justified. -/
def OutcomesUpheld (s : Store) : Prop :=
  ∀ key g r, s.group? key = some g → s.rollout? g.rolloutId = some r → r.deleted = false →
    g.Upheld

lemma outcomesUpheld_empty : OutcomesUpheld .empty := by
  intro key g r hg
  simp [Store.empty, group?, Table.intact?] at hg

/-- **Every step keeps what is recorded justified.** -/
theorem OutcomesUpheld.step (h : OutcomesUpheld s) (hs : Sound s) (hstep : Step allowed s s') :
    OutcomesUpheld s' := by
  intro key g' r' hg' hr' hd'
  -- the rollout was not deleted before either
  have hbefore : ∀ {id r}, s.rollout? id = some r → id = g'.rolloutId → r.deleted = false := by
    rintro id r hr rfl
    by_contra hd
    have hgone := hstep.deleted hs hr hr' (by simpa using hd)
    simp [hd'] at hgone
  have hold : ∀ {g}, s.group? key = some g → g.rolloutId = g'.rolloutId → g.Upheld := by
    intro g hg hof
    obtain ⟨r, hr⟩ := hs.group_rollout hg
    exact h key g r hg hr (hbefore hr hof)
  have hchange := hstep.group hs key
  rw [hg'] at hchange
  generalize hrow : s.group? key = row at hchange
  cases hchange with
  | same => exact hold hrow rfl
  | created _ hwaits hopen => exact upheld_of_open (by simp [hwaits]) hopen
  | counted hc => exact (hold hrow (by rw [hc.rest])).countsOn hc
  | turned _ hturn => exact (hold hrow hturn.rolloutId.symm).turn hturn
  | uncounted hr hdeleting counts =>
    have hd := hbefore hr rfl
    simp [deleted_of_deleting hs hr hdeleting] at hd

end Store

namespace Run

open Store

lemma outcomesUpheld (run : Run) : OutcomesUpheld run.store :=
  (run.trail run.within_any).1.keeps sound_empty (fun _ _ h hs hup => hup.step h hs)
    outcomesUpheld_empty

/-- **Recorded outcomes stay justified**, whatever devices report behind the verdict. -/
theorem outcomes_justified (run : Run) {key : GroupId} {g : RolloutGroup} {r : Rollout}
    (hg : Table.read run.store.groups key = .ok (some g))
    (hr : Table.read run.store.rollouts g.rolloutId = .ok (some r)) (hd : r.deleted = false) :
    g.Justified :=
  (run.outcomesUpheld key g r (Table.read_eq_some_iff.1 hg) (Table.read_eq_some_iff.1 hr)
    hd).toJustified

/-- The first group of the run is done with its one device. -/
def firstStage : RolloutGroup where
  id := "r:0000"
  rolloutId := "r"
  index := 0
  name := "group-1"
  targets := ["a"]
  targetCount := 1
  successCondition := .threshold 100
  errorCondition := none
  errorAction := .pause
  state := .finished
  outcome := some .success
  counts := ⟨0, 0, 0, 0, 0, 1, 0⟩
  errorAcknowledged := false
  startedAt := some 5
  finishedAt := some 7

lemma read_firstStage : Table.read threeStages.store.groups "r:0000" = .ok (some firstStage) := by
  cbv

theorem outcomes_justified_threeStages : firstStage.Justified :=
  outcomes_justified threeStages read_firstStage read_threeStages rfl

end Run

end StagedRollout
