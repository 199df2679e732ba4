/-
# A step goes as far as it can

A step of a scheduler that succeeds is held up by devices only.  A rollout that runs behind it waits
at one group, whose members all have their actions and whose counters do not end it yet
(`WaitsAt`).  A rollout that the step worked on and that does not run any more has come past all of
its groups, or one of them has failed just now (`FailsAt`).

The first part is what it means to be at rest.  The second part is about the outcome of a walk over
the groups, by induction on those that are still in front of it: the groups of the walk were there
when the step began, except for those that it has finished since, so the one that fails is the only
one that is newly in error.
-/
import StagedRollout.Proofs.Progression.Restart

namespace StagedRollout

open RolloutGroup Store Transaction

/-- No group has more actions than members. -/
lemma Store.Sound.total_le_targetCount {s : Store} {r : Rollout} {g : RolloutGroup} (h : Sound s)
    (hr : s.rollout? r.id = some r) (hd : r.deleted = false) (hg : g ∈ s.groupsOf r.id) :
    g.counts.total ≤ g.targetCount := by
  have hstored := (h.mem_groupsOf.1 hg).1
  have hn : (s.served g).Nodup := h.nodup_targetIds g.id
  rw [((h.agrees hr).roster hd).sizes g hg, h.total_eq hstored, ← List.length_map]
  exact (hn.subperm (h.served_subset hstored)).length_le

namespace Progression

variable {s s' : Store} {id : RolloutId} {now : Nat} {r : Rollout} {g : RolloutGroup}
  {front rest groups : List RolloutGroup}

/-! ## Waiting for devices -/

/-- A rollout waits at a group: all members are served, and their reports do not end the group
yet.  The groups before it let their successor start, and those behind it wait for their turn. -/
structure WaitsAt (s : Store) (id : RolloutId) (g : RolloutGroup) : Prop where
  mem : g ∈ s.groupsOf id
  running : g.state = .running
  alone : ∀ x ∈ s.groupsOf id, x.state = .running → x = g
  served : ∀ t ∈ g.targets, ∃ a ∈ s.actionsOf g.id, a.targetId = t
  total : g.counts.total = g.targetCount
  pending : g.verdict = .pending
  before : ∀ x ∈ s.groupsOf id, x.index < g.index → x.releasesSuccessor = true
  behind : ∀ x ∈ s.groupsOf id, g.index < x.index → x.state = .scheduled

lemma pending_of_settle? (hrun : g.state = .running) (hnone : g.settle? g.verdict now = none) :
    g.verdict = .pending := by
  rw [settle?, if_pos hrun] at hnone
  cases hverdict : g.verdict with
  | pending => rfl
  | succeeded | degraded | failed => simp [hverdict, settledBy] at hnone

/-- **A running rollout at rest waits at a group.** -/
theorem AtRest.waitsAt (hrest : AtRest id now s) (h : Sound s) (hr : s.rollout? id = some r)
    (hrun : r.state = .running) : ∃ g, WaitsAt s id g := by
  obtain rfl := (h.rollout_key hr).1
  have hagrees := h.agrees hr
  have hd := hagrees.deleted_eq_false_of_running hrun
  have htaken : taken? now r = some r := by rw [taken?, hrun]
  rcases hrest r hr hd with hnone | ⟨-, front, g, rest, hgroups, hfront, hg⟩
  · simp [htaken] at hnone
  have hmem : g ∈ s.groupsOf r.id := by simp [hgroups]
  -- a running rollout has no group that is stuck
  have hfits := hagrees.fits hd
  rw [hrun] at hfits
  obtain ⟨hstaffed, hnone⟩ := hg.resolve_left (hfits.1 g hmem)
  have hsorted := h.groupsOf_index_lt r.id
  have hstaged := hagrees.staged hd
  rw [hgroups] at hsorted hstaged
  obtain ⟨-, htail, hacross⟩ := List.pairwise_append.1 hsorted
  have hlater := (List.pairwise_cons.1 htail).1
  have hwaits : ∀ x ∈ rest, x.state = .scheduled := by
    cases hstaged.of_prepend hfront with
    | untouched hall =>
      have hscheduled := (hall g List.mem_cons_self).1
      simp [hstaffed.1] at hscheduled
    | current _ hall => exact fun x hx => (hall x hx).1
    | passed hreleases _ => simp [releasesSuccessor, hstaffed.1] at hreleases
  have hplace : ∀ x ∈ s.groupsOf r.id, x.releasesSuccessor = true ∧ x.index < g.index ∨ x = g ∨
      x.state = .scheduled ∧ g.index < x.index := by
    intro x hx
    rw [hgroups] at hx
    rcases List.mem_append.1 hx with hx | hx
    · exact .inl ⟨hfront x hx, hacross x hx g List.mem_cons_self⟩
    · exact .inr ((List.mem_cons.1 hx).imp_right fun hx => ⟨hwaits x hx, hlater x hx⟩)
  have hall := (h.targetCount_le_total_iff hr hd hmem).1 hstaffed.2
  refine ⟨g, hmem, hstaffed.1, fun x hx hxrun => ?_, fun t ht => ?_,
    le_antisymm (h.total_le_targetCount hr hd hmem) hstaffed.2,
    pending_of_settle? hstaffed.1 hnone, fun x hx hlt => ?_, fun x hx hlt => ?_⟩
  · rcases hplace x hx with ⟨hreleases, -⟩ | rfl | ⟨hscheduled, -⟩
    · simp [releasesSuccessor, hxrun] at hreleases
    · rfl
    · simp [hscheduled] at hxrun
  · have hserved := (h.mem_served (h.mem_groupsOf.1 hmem).1).2 (hall t ht)
    exact List.mem_map.1 hserved
  · rcases hplace x hx with ⟨hreleases, -⟩ | rfl | ⟨-, hgt⟩
    · exact hreleases
    · exact absurd hlt (Nat.lt_irrefl _)
    · omega
  · rcases hplace x hx with ⟨-, hgt⟩ | rfl | ⟨hscheduled, -⟩
    · omega
    · exact absurd hlt (Nat.lt_irrefl _)
    · exact hscheduled

/-! ## The end of a walk -/

/-- One of the groups of a rollout is in error now, and it was not before. -/
def NewlyFailed (before after : List RolloutGroup) (g : RolloutGroup) : Prop :=
  g ∈ after ∧ g.state = .error ∧ ∃ x ∈ before, x.id = g.id ∧ x.state ≠ .error

/-- One group of a rollout has failed, and the rollout with it as the group's error action says. -/
structure FailsAt (before after : List RolloutGroup) (r : Rollout) (g : RolloutGroup) : Prop where
  failed : NewlyFailed before after g
  alone : ∀ x, NewlyFailed before after x → x = g
  verdict : g.verdict = .failed
  state : r.state = match g.errorAction with
    | .pause => .paused
    | .stop => .error
  lastError : r.lastError = some (failureText g)

/-- A rollout has come past all of its groups. -/
def Completes (groups : List RolloutGroup) (r : Rollout) : Prop :=
  r.state = .finished ∧ ∀ x ∈ groups, x.releasesSuccessor = true

/-- What is left of the groups from the start once a walk has come past some of them. -/
structure Since (groups front rest : List RolloutGroup) : Prop where
  ids : (groups.map (·.id)).Nodup
  ahead : ∀ x ∈ rest, x ∈ groups
  errors : ∀ x ∈ front, x.state = .error → x ∈ groups

/-- A group in error is passed only if it was so from the start. -/
lemma Since.pass {g' : RolloutGroup} (h : Since groups front (g :: rest))
    (herror : g'.state = .error → g' ∈ groups) : Since groups (front ++ [g']) rest where
  ids := h.ids
  ahead x hx := h.ahead x (List.mem_cons_of_mem _ hx)
  errors x hx hxerror := by
    rcases List.mem_append.1 hx with hx | hx
    · exact h.errors x hx hxerror
    · obtain rfl := List.mem_singleton.1 hx
      exact herror hxerror

/-- The group that fails in front of the walk is the only one that is newly in error. -/
lemma Since.newlyFailed_iff (g' : RolloutGroup) (h : Since groups front (g :: rest))
    (hid : g'.id = g.id) (hopen : g.state ≠ .error) (herror : g'.state = .error)
    (x : RolloutGroup) : NewlyFailed groups (front ++ g' :: rest) x ↔ x = g' := by
  constructor
  · rintro ⟨hx, hxerror, old, hold, hoid, hnot⟩
    -- any other group in error was there from the start
    have hsame : x ∈ groups → x = g' := fun hmem => by
      obtain rfl := List.inj_on_of_nodup_map h.ids hold hmem hoid
      exact absurd hxerror hnot
    rcases List.mem_append.1 hx with hx | hx
    · exact hsame (h.errors x hx hxerror)
    · rcases List.mem_cons.1 hx with rfl | hx
      · rfl
      · exact hsame (h.ahead x (List.mem_cons_of_mem _ hx))
  · rintro rfl
    exact ⟨by simp, herror, g, h.ahead g List.mem_cons_self, hid.symm, hopen⟩

/-- What the store says once the group in front of a walk has failed. -/
lemma failsAt_withProgress {g₁ g' : RolloutGroup} {r' : Rollout}
    (hsince : Since groups front (g :: rest)) (hw : Walked r front (g₁ :: rest) (.ofStore s))
    (hopen : g.state ≠ .error) (hroster : SameRoster g g₁) (hverdict : g₁.verdict = .failed)
    (hend : g₁.settle? g₁.verdict now = some g')
    (happly : r.apply? (.groupFailed g₁.errorAction) now = some r') :
    let r₁ : Rollout := { r' with lastError := some (failureText g₁) }
    (s.withProgress r₁ [g']).rollout? r.id = some r₁ ∧
      FailsAt groups ((s.withProgress r₁ [g']).groupsOf r.id) r₁ g' := by
  intro r₁
  have hid : r'.id = r.id := Rollout.id_of_apply happly
  have hstate : r.state.next (.groupFailed g₁.errorAction) = some r'.state :=
    Rollout.state_apply? happly
  rw [hverdict] at hend
  obtain ⟨-, rfl⟩ := settle?_failed hend
  have hgroups : (s.withProgress r₁ [{ g₁ with
      state := .error, outcome := none, finishedAt := some now }]).groupsOf r.id =
        front ++ { g₁ with state := .error, outcome := none, finishedAt := some now } :: rest :=
    hw.settled.sound.toKeyed.groupsOf_withGroup hw.groups ⟨rfl, rfl, rfl, rfl⟩ rfl
  have honly := hsince.newlyFailed_iff
    { g₁ with state := .error, outcome := none, finishedAt := some now } hroster.id hopen rfl
  rw [hgroups]
  refine ⟨?_, (honly _).2 rfl, fun x hx => (honly x).1 hx, hverdict, ?_, rfl⟩
  · rw [withProgress, rollout?_withGroups, rollout?_withRollout, if_pos hid.symm]
  · rw [hw.running] at hstate
    cases haction : g₁.errorAction <;> rw [haction] at hstate <;>
      exact (Option.some.inj hstate).symm

/-- **Where a walk ends**: it waits, it has come past all groups, or a group has failed. -/
theorem outcomeOver_ends (hw : Walked r front rest (.ofStore s))
    (hsince : Since groups front rest) :
    ∃ r', (outcomeOver now r rest s).rollout? r.id = some r' ∧
      (r'.state = .running ∨ Completes ((outcomeOver now r rest s).groupsOf r.id) r' ∨
        ∃ g, FailsAt groups ((outcomeOver now r rest s).groupsOf r.id) r' g) := by
  induction rest generalizing front s with
  | nil =>
    obtain ⟨r', happly⟩ : ∃ r', r.apply? .allGroupsFinished now = some r' :=
      exists_applied (by simp [hw.running, RolloutState.next])
    have hid := Rollout.id_of_apply happly
    have hgroups : (s.withRollout r').groupsOf r.id = front ++ [] := hw.groups
    rw [outcomeOver, happly]
    refine ⟨r', ?_, .inr (.inl ⟨state_of_apply happly (by rw [hw.running]; rfl), ?_⟩)⟩
    · rw [rollout?_withRollout, if_pos hid.symm]
    · rw [hgroups, List.append_nil]
      exact hw.passed
  | cons g rest ih =>
    by_cases hpass : g.releasesSuccessor = true
    · rw [outcomeOver_of_releases hpass]
      exact ih (hw.pass hpass) (hsince.pass fun _ => hsince.ahead g List.mem_cons_self)
    by_cases herror : g.state = .error
    · rw [outcomeOver, if_neg hpass, if_pos herror]
      exact ⟨r, hw.row, .inl hw.running⟩
    have hstate : g.state = .running ∨ g.state = .scheduled := by
      have hready := hw.staged.state_ne_ready (g := g) (by simp)
      cases hs : g.state <;> simp_all [releasesSuccessor]
    have hcases : IsStaffed (staffed now r g s).1 ∧ _ := hw.staffed_cases hstate
    obtain ⟨hstaffed, hw', -⟩ := hcases
    have hroster := sameRoster_staffed now r g s
    rw [← outcomeOver_staffed hstate hstaffed, outcomeOver_of_isStaffed hstaffed]
    generalize staffed now r g s = p at hstaffed hw' hroster
    cases hend : p.1.settle? p.1.verdict now with
    | none => exact ⟨r, hw'.row, .inl hw'.running⟩
    | some settled =>
      dsimp only
      split
      · rename_i hverdict
        obtain ⟨r', happly⟩ : ∃ r', r.apply? (.groupFailed p.1.errorAction) now = some r' :=
          exists_applied (by cases p.1.errorAction <;> simp [hw.running, RolloutState.next])
        rw [happly]
        obtain ⟨hrow, hfails⟩ :=
          failsAt_withProgress hsince hw' herror hroster hverdict hend happly
        exact ⟨_, hrow, .inr (.inr ⟨settled, hfails⟩)⟩
      · rename_i hverdict
        have hsound : Sound p.2 := hw'.settled.sound
        have hm : Move (fun _ => True) p.2 (p.2.withGroup settled) :=
          .settle hw'.row hw'.running hw'.mem hstaffed hverdict hend
        obtain ⟨-, outcome, rfl⟩ := settle?_eq_some hverdict hend
        have hreplaced := hw'.replace (.ofStore (hsound.move hm)) rfl rfl ⟨rfl, rfl, rfl, rfl⟩ rfl
        exact ih (Walked.pass hreplaced rfl) (hsince.pass fun herror => by cases herror)

/-! ## One step -/

/-- A step works on a rollout: it is at work already, or it is due. -/
def AtWork (now : Nat) (r : Rollout) : Prop :=
  r.state = .running ∨ r.state = .starting ∨ r.state = .ready ∧ r.startPolicy.isDue now = true

/-- A rollout that is starting is taken up, and the walk begins at its first group. -/
lemma walked_of_starting (h : Sound s) (hr : s.rollout? r.id = some r)
    (hstarting : r.state = .starting) : ∃ r₁, r.apply? .started now = some r₁ ∧ r₁.id = r.id ∧
      Walked r₁ [] (s.groupsOf r₁.id) (.ofStore (s.withRollout r₁)) := by
  have hnext : r.state.next .started = some .running := by rw [hstarting]; rfl
  obtain ⟨r₁, happly⟩ : ∃ r₁, r.apply? .started now = some r₁ := exists_applied (by simp [hnext])
  have hm : Move (fun _ => True) s (s.withRollout r₁) := .order trivial hr rfl happly
  have hrow : (s.withRollout r₁).rollout? r₁.id = some r₁ := by
    rw [rollout?_withRollout, if_pos rfl]
  exact ⟨r₁, happly, Rollout.id_of_apply happly, .ofStore (h.move hm), hrow,
    state_of_apply happly hnext, rfl, by simp⟩

/-- A walk over the groups of a rollout begins where a step works on it. -/
lemma AtWork.walked (hwork : AtWork now r) (h : Sound s) (hr : s.rollout? r.id = some r) :
    ∃ r₁, taken? now r = some r₁ ∧ r₁.id = r.id ∧
      Walked r₁ [] (s.groupsOf r₁.id) (.ofStore (s.withRollout r₁)) := by
  rcases hwork with hrun | hstarting | ⟨hready, hdue⟩
  · refine ⟨r, by rw [taken?, hrun], rfl, ?_⟩
    rw [withRollout_eq_self hr]
    exact ⟨.ofStore h, hr, hrun, rfl, by simp⟩
  · rw [taken?, hstarting]
    exact walked_of_starting h hr hstarting
  · have hnext : r.state.next .start = some .starting := by rw [hready]; rfl
    obtain ⟨r₀, happly⟩ : ∃ r₀, r.apply? .start now = some r₀ := exists_applied (by simp [hnext])
    have hid := Rollout.id_of_apply happly
    have hm : Move (fun _ => True) s (s.withRollout r₀) := .order trivial hr rfl happly
    have hrow : (s.withRollout r₀).rollout? r₀.id = some r₀ := by
      rw [rollout?_withRollout, if_pos rfl]
    obtain ⟨r₁, hr₁, hid₁, hw⟩ :=
      walked_of_starting (h.move hm) hrow (state_of_apply happly hnext)
    rw [withRollout_withRollout s hid₁] at hw
    refine ⟨r₁, ?_, hid₁.trans hid, hw⟩
    simp only [taken?, hready, hdue, if_true, happly]
    exact hr₁

/-- What a step makes of a rollout that it works on. -/
lemma outcome_ends (hwork : AtWork now r) (h : Sound s) (hr : s.rollout? r.id = some r) :
    ∃ r', (outcome r.id now s).rollout? r.id = some r' ∧
      (r'.state = .running ∨ Completes ((outcome r.id now s).groupsOf r.id) r' ∨
        ∃ g, FailsAt (s.groupsOf r.id) ((outcome r.id now s).groupsOf r.id) r' g) := by
  have hd : r.deleted = false := by
    refine (h.agrees hr).deleted_eq_false ?_ ?_ <;>
      · rcases hwork with hs | hs | ⟨hs, -⟩ <;> simp [hs]
  obtain ⟨r₁, htaken, hid, hw⟩ := hwork.walked h hr
  simp only [outcome, hr, hd, htaken, Bool.false_eq_true, if_false]
  rw [← hid]
  exact outcomeOver_ends hw ⟨h.toKeyed.nodup_groupsOf r₁.id, fun _ hx => hx, by simp⟩

end Progression

namespace Run

open Progression

/-- **A step never stops short.**  When it succeeds, a rollout that runs behind it waits at one
group, for devices; and one that it worked on and that does not run has come past all of its
groups, or one of them has failed just now. -/
theorem advance_arrives (run : Run) (id : RolloutId) (now : Nat) {fence : Option Fence}
    {env : Surroundings} (henv : env.Gentle) {adv : Advance}
    (hdone : ((ExceptT.run (advance fence id now)).run env run.world).1 = .ok adv) :
    let s := run.store
    let s' := ((ExceptT.run (advance fence id now)).run env run.world).2.store
    (∀ r', s'.rollout? id = some r' → r'.state = .running → ∃ g, WaitsAt s' id g) ∧
    (∀ r, s.rollout? id = some r → AtWork now r → ∃ r', s'.rollout? id = some r' ∧
      (r'.state ≠ .running → Completes (s'.groupsOf id) r' ∨
        ∃ g, FailsAt (s.groupsOf id) (s'.groupsOf id) r' g)) := by
  intro s s'
  have hsound : Sound s := run.sound
  cases hr : s.rollout? id with
  | none =>
    have hmissing : Operation.Under .silent (advance fence id now) _ _ run.world.store :=
      advance_missing hr
    have hsilent : ∀ a s, Terms.silent.meanwhile s (env.deliver a s).2 := fun _ _ => trivial
    obtain ⟨-, hnot⟩ := Program.Under.run hsilent hmissing
    rw [hdone] at hnot
    cases hnot
  | some r =>
    obtain rfl := (hsound.rollout_key hr).1
    have hstart : OnCourse r.id now (outcome r.id now s).progress run.world.store :=
      ⟨hsound, ⟨r, hr⟩, rfl⟩
    have hadvance : Operation.Courses r.id now _ fence (advance fence r.id now) _ run.world.store :=
      advance_course hstart
    obtain ⟨-, hend⟩ := Program.Under.run (fun a s => henv a s) hadvance
    rw [hdone] at hend
    obtain ⟨hcourse, hrest⟩ := hend
    have hsame : SameProgress (outcome r.id now s) s' :=
      sameProgress_iff.2 (hcourse.progress_eq hrest)
    refine ⟨fun r' hr' hrun => hrest.waitsAt hcourse.sound hr' hrun, fun r₀ hr₀ hwork => ?_⟩
    obtain rfl := Option.some.inj hr₀
    obtain ⟨r', hr', hends⟩ := outcome_ends hwork hsound hr
    rw [rollout?, ← hsame.rollouts] at hr'
    rw [groupsOf, ← hsame.groups] at hends
    exact ⟨r', hr', hends.resolve_left⟩

/-- A step that starts the first group of a rollout waits there for its device. -/
theorem advance_arrives_threeStages :
    let s' := ((ExceptT.run (advance none "r" 5)).run quiet
      (Run.world (threeStages.take 4))).2.store
    (s'.rollout? "r").map (·.state) = some .running ∧ ∃ g, WaitsAt s' "r" g := by
  have hgentle : quiet.Gentle := fun _ s => .refl s
  obtain ⟨adv, hdone⟩ : ∃ adv, ((ExceptT.run (advance none "r" 5)).run quiet
      (Run.world (threeStages.take 4))).1 = .ok adv := ⟨⟨.ready, .running, 1, 0⟩, by cbv⟩
  have hrun : (((ExceptT.run (advance none "r" 5)).run quiet
      (Run.world (threeStages.take 4))).2.store.rollout? "r").map (·.state) = some .running := by
    cbv
  obtain ⟨r', hr', hstate⟩ := Option.map_eq_some_iff.1 hrun
  exact ⟨hrun, (advance_arrives (threeStages.take 4) "r" 5 hgentle hdone).1 r' hr' hstate⟩

end Run

end StagedRollout
