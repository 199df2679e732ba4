/-
# The life of a group

A group waits, runs, and then finishes or fails, and it never goes back.  Several columns of its
row tell of the same course: when it started, when it ended and how, and whether an operator has
acknowledged its failure.  They never contradict each other (`RolloutGroup.Consistent`), and what
has been set once does not change (`RolloutGroup.Proceeds`).

Rows of groups are written as a whole, from copies that were read before.  So every change of a row
is looked at (`Turn`), and that the copy was up to date is what makes it one of these.
-/
import Mathlib.Logic.Relation
import StagedRollout.Proofs.Invariants
import StagedRollout.Proofs.Store.Changes

namespace StagedRollout

open Relation Store

/-- One move of a group from state to state. -/
inductive GroupState.Next : GroupState → GroupState → Prop
  | starts : Next .scheduled .running
  | finishes : Next .running .finished
  | fails : Next .running .error

namespace RolloutGroup

/-- The columns of a group agree on where it stands. -/
structure Consistent (g : RolloutGroup) : Prop where
  started : g.startedAt.isSome = true ↔
    g.state = .running ∨ g.state = .finished ∨ g.state = .error
  ended : g.finishedAt.isSome = true ↔ g.state = .finished ∨ g.state = .error
  judged : g.outcome.isSome = true ↔ g.state = .finished
  acknowledged : g.errorAcknowledged = true → g.state = .error ∧ g.errorAction = .pause
  course : ReflTransGen GroupState.Next .scheduled g.state

/-- The state of a group moves on as a relation allows, and what has been set stays. -/
structure Proceeds (moves : GroupState → GroupState → Prop) (g g' : RolloutGroup) : Prop where
  state : moves g.state g'.state
  startedAt : g.startedAt.isSome = true → g'.startedAt = g.startedAt
  finishedAt : g.finishedAt.isSome = true → g'.finishedAt = g.finishedAt
  outcome : g.outcome.isSome = true → g'.outcome = g.outcome

/-- A group whose state moves by one link at most. -/
abbrev Advances : RolloutGroup → RolloutGroup → Prop := Proceeds (ReflGen GroupState.Next)

/-- A group whose state moves by any number of links. -/
abbrev Evolves : RolloutGroup → RolloutGroup → Prop := Proceeds (ReflTransGen GroupState.Next)

variable {allowed : Intent → Prop} {state : RolloutState} {g g' g'' : RolloutGroup}

/-- Only other columns of the group change. -/
lemma Advances.beside (hstate : g'.state = g.state) (hstart : g'.startedAt = g.startedAt)
    (hend : g'.finishedAt = g.finishedAt) (houtcome : g'.outcome = g.outcome) : Advances g g' :=
  ⟨hstate ▸ .refl, fun _ => hstart, fun _ => hend, fun _ => houtcome⟩

lemma Evolves.refl (g : RolloutGroup) : Evolves g g :=
  ⟨.refl, fun _ => rfl, fun _ => rfl, fun _ => rfl⟩

lemma Evolves.advance (h : Evolves g g') (h' : Advances g' g'') : Evolves g g'' where
  state := h.state.trans h'.state.to_reflTransGen
  startedAt hset := by
    have heq := h.startedAt hset
    rw [h'.startedAt (heq ▸ hset), heq]
  finishedAt hset := by
    have heq := h.finishedAt hset
    rw [h'.finishedAt (heq ▸ hset), heq]
  outcome hset := by
    have heq := h.outcome hset
    rw [h'.outcome (heq ▸ hset), heq]

/-! ## What happens to one group -/

/-- A group to which nothing has happened yet. -/
lemma consistent_of_created (hwaits : g.state = .scheduled) (hopen : g.outcome = none)
    (hacknowledged : g.errorAcknowledged = false) (hstart : g.startedAt = none)
    (hend : g.finishedAt = none) : Consistent g := by
  constructor <;> simp [*, ReflTransGen.refl]

/-- Nothing but counters changes. -/
lemma Consistent.withCounts (h : Consistent g) (counts : StatusCounts) :
    Consistent { g with counts := counts } ∧ Advances g { g with counts := counts } :=
  ⟨⟨h.started, h.ended, h.judged, h.acknowledged, h.course⟩, .beside rfl rfl rfl rfl⟩

/-- A group that waits has no columns set, so it may start. -/
lemma Consistent.begin (h : Consistent g) (hwaits : g.state = .scheduled) (counts : StatusCounts)
    (now : Nat) :
    let g' := { g with counts := counts, state := .running, startedAt := some now }
    Consistent g' ∧ Advances g g' := by
  have hstart : ¬ g.startedAt.isSome = true := by simp [h.started, hwaits]
  have hend : ¬ g.finishedAt.isSome = true := by simp [h.ended, hwaits]
  have houtcome : ¬ g.outcome.isSome = true := by simp [h.judged, hwaits]
  have hack : ¬ g.errorAcknowledged = true := fun hack => by
    simpa [hwaits] using (h.acknowledged hack).1
  refine ⟨⟨by simp, by simp [hend], by simp [houtcome], fun hset => absurd hset hack,
    .single .starts⟩, ?_⟩
  exact ⟨.single (hwaits ▸ .starts), fun hset => absurd hset hstart, fun _ => rfl, fun _ => rfl⟩

/-- A group that is running has neither end nor outcome, so it may get both, or it fails. -/
lemma Consistent.settle (h : Consistent g) (hrun : g.state = .running) {state : GroupState}
    {outcome : Option GroupOutcome} (now : Nat)
    (hends : state = .finished ∧ outcome.isSome = true ∨ state = .error ∧ outcome = none) :
    let g' := { g with state := state, outcome := outcome, finishedAt := some now }
    Consistent g' ∧ Advances g g' := by
  have hstart : g.startedAt.isSome = true := h.started.2 (.inl hrun)
  have hend : ¬ g.finishedAt.isSome = true := by simp [h.ended, hrun]
  have hopen : ¬ g.outcome.isSome = true := by simp [h.judged, hrun]
  have hack : ¬ g.errorAcknowledged = true := fun hack => by
    simpa [hrun] using (h.acknowledged hack).1
  have hmoves : ReflGen GroupState.Next g.state state := by
    rw [hrun]
    rcases hends with ⟨rfl, -⟩ | ⟨rfl, -⟩
    · exact .single .finishes
    · exact .single .fails
  have hcourse := h.course.trans hmoves.to_reflTransGen
  refine ⟨?_, hmoves, fun _ => rfl, fun hset => absurd hset hend, fun hset => absurd hset hopen⟩
  rcases hends with ⟨rfl, houtcome⟩ | ⟨rfl, rfl⟩
  · exact ⟨by simp [hstart], by simp, by simp [houtcome], fun hset => absurd hset hack, hcourse⟩
  · exact ⟨by simp [hstart], by simp, by simp, fun hset => absurd hset hack, hcourse⟩

/-- A verdict records an outcome if it finishes the group, and none if the group has failed. -/
lemma settledBy_cases {verdict : Verdict} {state : GroupState} {outcome : Option GroupOutcome}
    (h : settledBy verdict = some (state, outcome)) :
    state = .finished ∧ outcome.isSome = true ∨ state = .error ∧ outcome = none := by
  cases verdict <;> simp only [settledBy, reduceCtorEq, Option.some.injEq, Prod.mk.injEq] at h
  case succeeded | degraded =>
    obtain ⟨rfl, rfl⟩ := h
    exact .inl ⟨rfl, rfl⟩
  case failed =>
    obtain ⟨rfl, rfl⟩ := h
    exact .inr ⟨rfl, rfl⟩

/-- **However a group goes on, its columns agree, and it moves by one link at most.** -/
theorem Consistent.turn (h : Consistent g) (hturn : Turn allowed state g g') :
    Consistent g' ∧ Advances g g' := by
  cases hturn with
  | @begun _ actions now _ hg =>
    rcases hg with hrun | hwaits
    · rw [begunWith_of_running hrun]
      exact h.withCounts _
    · rw [begunWith_of_scheduled hwaits]
      exact h.begin hwaits _ now
  | joined =>
    exact ⟨⟨h.started, h.ended, h.judged, h.acknowledged, h.course⟩, .beside rfl rfl rfl rfl⟩
  | judged _ hend =>
    obtain ⟨hrun, state, outcome, hsettled, rfl⟩ := settle?_eq hend
    exact h.settle hrun _ (settledBy_cases hsettled)
  | triggered _ hend =>
    obtain ⟨hrun, rfl⟩ := trigger?_eq hend
    exact h.settle hrun _ (.inl ⟨rfl, rfl⟩)
  | acknowledged hpausing =>
    obtain ⟨⟨hfailed, -⟩, hpause⟩ := hpausing
    exact ⟨⟨h.started, h.ended, h.judged, fun _ => ⟨hfailed, hpause⟩, h.course⟩,
      .beside rfl rfl rfl rfl⟩

end RolloutGroup

/-! ## All groups -/

namespace Store

open RolloutGroup

variable {allowed : Intent → Prop} {s s' t t' : Store} {l : List Action} {key : GroupId}
  {g : RolloutGroup}

/-- The columns of every group agree. -/
def GroupsConsistent (s : Store) : Prop := ∀ key g, s.group? key = some g → g.Consistent

/-- The groups that are in both stores have moved by one link at most. -/
def GroupsAdvance (s s' : Store) : Prop :=
  ∀ key g g', s.group? key = some g → s'.group? key = some g' → g.Advances g'

lemma groupsConsistent_empty : GroupsConsistent .empty := by
  intro key g hg
  simp [Store.empty, group?, Table.intact?] at hg

/-- **Every step keeps the columns of groups in agreement**, and moves a group by one link at
most. -/
theorem GroupsConsistent.step (h : GroupsConsistent s) (hs : Sound s) (hstep : Step allowed s s') :
    GroupsConsistent s' ∧ GroupsAdvance s s' := by
  have hrow : ∀ key g', s'.group? key = some g' →
      g'.Consistent ∧ ∀ g, s.group? key = some g → g.Advances g' := by
    intro key g' hg'
    have hchange := hstep.group hs key
    rw [hg'] at hchange
    generalize hold : s.group? key = row at hchange
    cases hchange with
    | same => exact ⟨h key g' hold, fun g hg => Option.some.inj hg ▸ .beside rfl rfl rfl rfl⟩
    | created _ hwaits hopen hack hstart hend =>
      exact ⟨consistent_of_created hwaits hopen hack hstart hend, fun g hg => by simp at hg⟩
    | @counted g _ hcounts =>
      rw [hcounts.rest]
      have hkept := (h key g hold).withCounts g'.counts
      exact ⟨hkept.1, fun x hx => Option.some.inj hx ▸ hkept.2⟩
    | @turned r g _ _ hturn =>
      have hkept := (h key g hold).turn hturn
      exact ⟨hkept.1, fun x hx => Option.some.inj hx ▸ hkept.2⟩
    | @uncounted r g _ _ counts =>
      have hkept := (h key g hold).withCounts counts
      exact ⟨hkept.1, fun x hx => Option.some.inj hx ▸ hkept.2⟩
  exact ⟨fun key g' hg' => (hrow key g' hg').1, fun key g g' hg hg' => (hrow key g' hg').2 g hg⟩

/-- The group is there and goes on from an earlier state of it, or it is gone, and its rollout
keeps anyone from making it again. -/
def Lasts (key : GroupId) (g : RolloutGroup) (s : Store) : Prop :=
  (∃ g', s.group? key = some g' ∧ g.Evolves g') ∨
    s.group? key = none ∧ ∃ r, s.rollout? g.rolloutId = some r

lemma Lasts.step (h : Lasts key g t) (hs : Keyed s) (hg : s.group? key = some g) (ht : Sound t)
    (hstep : Step allowed t t') (hadvance : GroupsAdvance t t') : Lasts key g t' := by
  rcases h with ⟨x, hx, hevolves⟩ | ⟨hnone, r, hr⟩
  · rcases hrow : t'.group? key with _ | x'
    · obtain ⟨r, hr⟩ := ht.group_rollout hx
      rw [hs.group_rollout_eq ht.toKeyed hg hx] at hr
      exact .inr ⟨hrow, hstep.exists_rollout hr⟩
    · exact .inl ⟨x', hrow, hevolves.advance (hadvance key x x' hx hrow)⟩
  · refine .inr ⟨?_, hstep.exists_rollout hr⟩
    have hchange := hstep.group ht key
    rw [hnone] at hchange
    generalize hrow : t'.group? key = row at hchange ⊢
    cases hchange with
    | same => rfl
    | created hnew =>
      rw [hs.group_rollout_eq (ht.step hstep).toKeyed hg hrow, hr] at hnew
      simp at hnew

end Store

open Store

variable {allowed : Intent → Prop} {s s' : Store} {l : List Action}

/-- The steps of a trail are also steps of another kind. -/
lemma Trail.imp {step step' : Store → Store → Prop} {J : Store → Prop} (h : Trail step s l s')
    (hstep : ∀ t t', J t → step t t' → step' t t' ∧ J t') (hJ : J s) : Trail step' s l s' := by
  induction h with
  | nil s => exact .nil s
  | cons hs _ ih =>
    obtain ⟨hs', hJ'⟩ := hstep _ _ hJ hs
    exact .cons hs' (ih hJ')

lemma Trail.groupsConsistent (h : Trail (Step allowed) s l s') (hs : Sound s)
    (hc : GroupsConsistent s) : GroupsConsistent s' :=
  h.keeps hs (fun _ _ ht hstep hc => (hc.step ht hstep).1) hc

/-- **On a trail groups move link by link.** -/
lemma Trail.groupsAdvance (h : Trail (Step allowed) s l s') (hs : Sound s)
    (hc : GroupsConsistent s) : Trail GroupsAdvance s l s' :=
  h.imp (J := fun t => Sound t ∧ GroupsConsistent t)
    (fun _ _ ht hstep =>
      have hkept := ht.2.step ht.1 hstep
      ⟨hkept.2, ht.1.step hstep, hkept.1⟩)
    ⟨hs, hc⟩

/-- **No group starts over**, even if cleanup removes it. -/
lemma Trail.group_evolves (h : Trail (Step allowed) s l s') (hs : Sound s)
    (hc : GroupsConsistent s) {key : GroupId} {g g' : RolloutGroup} (hg : s.group? key = some g)
    (hg' : s'.group? key = some g') : g.Evolves g' := by
  have hlasts := h.keeps (J := fun t => GroupsConsistent t ∧ Lasts key g t) hs
    (fun t t' ht hstep hJ =>
      have hkept := hJ.1.step ht hstep
      ⟨hkept.1, hJ.2.step hs.toKeyed hg ht hstep hkept.2⟩)
    ⟨hc, .inl ⟨g, hg, .refl g⟩⟩
  rcases hlasts.2 with ⟨x, hx, hevolves⟩ | ⟨hnone, -⟩
  · obtain rfl := Option.some.inj (hx.symm.trans hg')
    exact hevolves
  · simp [hnone] at hg'

/-! ## Runs -/

namespace Run

lemma groupsConsistent (run : Run) : GroupsConsistent run.store :=
  (run.trail run.within_any).1.groupsConsistent sound_empty groupsConsistent_empty

/-- **Group rows stay consistent.**  In every row the times, the outcome and the acknowledgement
agree with the state.  While a run goes on, every write moves a group by one link at most, from
scheduled to running to finished or error, and whatever has been set of a group stays as it is. -/
theorem group_rows_consistent (run : Run) :
    (∀ key row, run.store.groups.find? key = some row → ∃ g, row = .intact g ∧ g.Consistent) ∧
    ∀ later : Run,
      Trail GroupsAdvance run.store (later.createdFrom run.world) (run ++ later).store ∧
      ∀ key g g', Table.read run.store.groups key = .ok (some g) →
        Table.read (run ++ later).store.groups key = .ok (some g') → g.Evolves g' := by
  refine ⟨fun key row hrow => ?_, fun later => ⟨?_, fun key g g' hg hg' => ?_⟩⟩
  · obtain ⟨g, rfl⟩ := run.sound.groups_intact key row hrow
    exact ⟨g, rfl, run.groupsConsistent key g (Table.intact?_eq_some_iff.2 hrow)⟩
  · exact (run.continues later).groupsAdvance run.sound run.groupsConsistent
  · exact (run.continues later).group_evolves run.sound run.groupsConsistent
      (Table.read_eq_some_iff.1 hg) (Table.read_eq_some_iff.1 hg')

end Run

end StagedRollout
