/-
# A step may begin anew

A step of a scheduler makes several writes, and it may be cut off before any of them.  Every write
leaves a store on the same course, that is with the same outcome (`OnCourse`), and the step ends at
rest.  So a step that begins anew where another one was cut off ends where that one would have
ended, and a step behind one that was completed does nothing.
-/
import StagedRollout.Proofs.Invariants
import StagedRollout.Proofs.Program.Terms
import StagedRollout.Proofs.Progression.Outcome

namespace StagedRollout

open RolloutGroup Store Transaction

/-- The chronicle of a store before anything happens. -/
def Chronicle.ofStore (s : Store) : Chronicle := ⟨s, [], []⟩

lemma Settled.ofStore {s : Store} (h : Sound s) : Settled (.ofStore s) := ⟨h, rfl⟩

namespace Progression

variable {s s' : Store} {id : RolloutId} {now : Nat} {S : Store} {fence : Option Fence}
  {r : Rollout} {g : RolloutGroup} {front rest : List RolloutGroup}

/-! ## On course -/

/-- A sound store with a rollout whose outcome is known. -/
structure OnCourse (id : RolloutId) (now : Nat) (S s : Store) : Prop where
  sound : Sound s
  row : ∃ r, s.rollout? id = some r
  outcome_eq : (outcome id now s).progress = S

/-- The terms of a step: every write goes from a store on course to another one. -/
def course (id : RolloutId) (now : Nat) (S : Store) : Terms where
  writes s s' := OnCourse id now S s ∧ OnCourse id now S s'
  tells _ _ := True
  meanwhile := SameProgress

lemma OnCourse.congr (h : OnCourse id now S s) (hs : SameProgress s s') : OnCourse id now S s' where
  sound := h.sound.congr hs
  row := by
    obtain ⟨r, hr⟩ := h.row
    exact ⟨r, by rw [rollout?, hs.rollouts, ← rollout?, hr]⟩
  outcome_eq := (outcome_congr hs id now).trans h.outcome_eq

lemma AtRest.congr (h : AtRest id now s) (hs : SameProgress s s') : AtRest id now s' := by
  intro r hr hd
  rw [rollout?, hs.rollouts] at hr
  rw [groupsOf, hs.groups]
  exact h r hr hd

/-- At the end the outcome is there. -/
lemma OnCourse.progress_eq (h : OnCourse id now S s) (hrest : AtRest id now s) :
    s.progress = S := by
  rw [← h.outcome_eq, outcome_of_atRest h.sound hrest]

lemma OnCourse.of_atRest (h : Sound s) (hr : s.rollout? id = some r) (hrest : AtRest id now s)
    (hS : s.progress = S) : OnCourse id now S s :=
  ⟨h, ⟨r, hr⟩, (congrArg Store.progress (outcome_of_atRest h hrest)).trans hS⟩

/-- A rollout that is neither due nor at work is at rest. -/
lemma atRest_of_taken? (hr : s.rollout? id = some r) (hnone : taken? now r = none) :
    AtRest id now s := by
  intro r' hr' _
  obtain rfl := Option.some.inj (hr.symm.trans hr')
  exact .inl hnone

/-- An operation on course.  Only a fence can turn it away. -/
def Operation.Courses {ε α : Type} (id : RolloutId) (now : Nat) (S : Store) (fence : Option Fence)
    (op : Operation ε α) (Q : α → Store → Prop) (s : Store) : Prop :=
  Operation.Under (course id now S) op Q (fun _ s' => OnCourse id now S s' ∧ fence.isSome = true) s

variable {α : Type}

lemma commit_course {t : Transaction α} {a : α} {Q : α → Store → Prop}
    (hrun : t s = .ok (a, s')) (h : OnCourse id now S s) (h' : OnCourse id now S s') (hQ : Q a s') :
    Operation.Courses id now S fence
      (Operation.mapError RolloutError.persistence (Operation.commit fence t)) Q s := by
  refine .mapError (.commit ⟨h, h⟩ (fun n e he => ⟨h, ?_⟩) fun _ _ =>
    ⟨fun e he => ?_, fun a' s'' hrun' => ?_⟩)
  · cases fence with
    | none => cases he
    | some f => rfl
  · cases hrun.symm.trans he
  · obtain ⟨rfl, rfl⟩ := Prod.mk.inj (Except.ok.inj (hrun.symm.trans hrun'))
    exact ⟨⟨h, h'⟩, hQ⟩

lemma notify_course {actions : List Action} :
    Program.Under (course id now S) (notify actions) (fun _ s' => SameProgress s s') s := by
  induction actions generalizing s with
  | nil => exact .refl s
  | cons a rest ih => exact ⟨trivial, fun _ s' hs => ih.mono fun _ s'' hs' => hs.trans hs'⟩

/-! ## The walk -/

namespace Walked

lemma congr (h : Walked r front rest (.ofStore s)) (hs : SameProgress s s') :
    Walked r front rest (.ofStore s') where
  settled := .ofStore (h.settled.sound.congr hs)
  row := by
    have hrow : s'.rollout? r.id = s.rollout? r.id := by rw [rollout?, hs.rollouts, ← rollout?]
    exact hrow.trans h.row
  running := h.running
  groups := by
    have hgroups : s'.groupsOf r.id = s.groupsOf r.id := by rw [groupsOf, hs.groups, ← groupsOf]
    exact hgroups.trans h.groups
  passed := h.passed

/-- The walk is where a new step would be once it has come past the same groups. -/
lemma outcome_eq (h : Walked r front rest (.ofStore s)) :
    outcome r.id now s = outcomeOver now r rest s := by
  have hrow : s.rollout? r.id = some r := h.row
  have hgroups : s.groupsOf r.id = front ++ rest := h.groups
  have hd := (h.settled.sound.agrees h.row).deleted_eq_false_of_running h.running
  have htaken : taken? now r = some r := by rw [taken?, h.running]
  simp only [outcome, hrow, hd, htaken, Bool.false_eq_true, if_false]
  rw [withRollout_eq_self hrow, hgroups, outcomeOver_append h.passed]

lemma onCourse (h : Walked r front rest (.ofStore s))
    (hS : (outcomeOver now r rest s).progress = S) : OnCourse r.id now S s :=
  ⟨h.settled.sound, ⟨r, h.row⟩, by rw [h.outcome_eq]; exact hS⟩

/-- The actions of a group are issued, or it has them all. -/
lemma staffed_cases (h : Walked r front (g :: rest) (.ofStore s))
    (hg : g.state = .running ∨ g.state = .scheduled) :
    IsStaffed (staffed now r g s).1 ∧
      Walked r front ((staffed now r g s).1 :: rest) (.ofStore (staffed now r g s).2) ∧
      (¬ IsStaffed g → issueActions g.id (orders now r g) now s =
        .ok (⟨(staffed now r g s).1, s.missing (orders now r g)⟩, (staffed now r g s).2)) := by
  by_cases hstaffed : IsStaffed g
  · rw [staffed_of_isStaffed hstaffed]
    exact ⟨hstaffed, h, fun hnot => absurd hstaffed hnot⟩
  rw [staffed, if_neg hstaffed]
  have hsound : Sound s := h.settled.sound
  have hrow : s.rollout? r.id = some r := h.row
  have hmem : g ∈ s.groupsOf r.id := h.mem
  have hturn : MayIssue (s.groupsOf r.id) g := h.mayIssue hg
  have hd := (hsound.agrees hrow).deleted_eq_false_of_running h.running
  have hstored := (hsound.mem_groupsOf.1 hmem).1
  have hn := hsound.nodup_targets hrow hd hmem
  have hissue : Sound (s.issued g (orders now r g) now) :=
    hsound.issue (.issue hrow h.running hmem hturn (.refl _))
  have hroster := sameRoster_begunWith g (s.missing (orders now r g)) now
  have hwalked : Walked r front (begunWith g (s.missing (orders now r g)) now :: rest)
      (.ofStore (s.issued g (orders now r g) now)) :=
    h.replace (.ofStore hissue) (rollout?_issued s g _ now r.id)
      (groupsOf_issued s g _ now r.id) hroster (rolloutId_begunWith g _ now)
  exact ⟨hsound.isStaffed_issued hrow h.running hmem hturn, hwalked, fun _ =>
    issueActions_run hsound.toKeyed hstored
      (nodup_newActions r now (hsound.isGroupId hstored) hn)⟩

end Walked

/-- A group that lacks actions gets them on course. -/
lemma issue_course {Q : Issued → Store → Prop} (hw : Walked r front (g :: rest) (.ofStore s))
    (hg : g.state = .running ∨ g.state = .scheduled) (hlacks : ¬ IsStaffed g)
    (hS : (outcomeOver now r (g :: rest) s).progress = S)
    (hQ : ∀ issued s', SameRoster g issued.group →
      Walked r front (issued.group :: rest) (.ofStore s') → IsStaffed issued.group →
      (outcomeOver now r (issued.group :: rest) s').progress = S → Q issued s') :
    Operation.Courses r.id now S fence (issue fence r g g.targets now) Q s := by
  obtain ⟨hstaffed, hw', hrun⟩ := hw.staffed_cases hg
  have hS' := (congrArg Store.progress (outcomeOver_staffed hg hstaffed rest)).trans hS
  refine .bind (commit_course (hrun hlacks) (hw.onCourse hS) (hw'.onCourse hS') (.bind (.lift ?_)))
  exact notify_course.mono fun _ s' hs => .pure (hQ _ s' (sameRoster_staffed now r g s)
    (hw'.congr hs) hstaffed ((outcomeOver_congr hs _).trans hS'))

/-- How the walk comes to a group that is running then: it starts the group if that waits, and a
group that has all its actions stays as it is. -/
structure Entered (g g' : RolloutGroup) (started : Bool) (s s' : Store) : Prop where
  roster : SameRoster g g'
  started_iff : started = true ↔ g.state = .scheduled
  running : g.state ≠ .scheduled → g.state = .running
  still : IsStaffed g → g' = g ∧ s' = s

/-- However the walk comes to a group, a running one has all its actions. -/
lemma enter_course {previous : Option RolloutGroup} {Q : Entry → Store → Prop}
    (hw : Walked r front (g :: rest) (.ofStore s))
    (hprevious : previous.all RolloutGroup.releasesSuccessor = true)
    (hS : (outcomeOver now r (g :: rest) s).progress = S)
    (hpassed : g.releasesSuccessor = true → Q .passed s) (hblocked : g.IsStuck → Q .blocked s)
    (hrunning : ∀ g' started s', Entered g g' started s s' →
      Walked r front (g' :: rest) (.ofStore s') → IsStaffed g' →
      (outcomeOver now r (g' :: rest) s').progress = S → Q (.running g' started) s') :
    Operation.Courses r.id now S fence (enter fence now previous r g) Q s := by
  unfold enter
  cases hstate : g.state with
  | finished => exact .pure (hpassed (by simp [releasesSuccessor, hstate]))
  | error =>
    cases hack : g.errorAcknowledged with
    | true => exact .pure (hpassed (by simp [releasesSuccessor, hstate, hack]))
    | false => exact .pure (hblocked ⟨hstate, hack⟩)
  | ready => exact absurd hstate (hw.staged.state_ne_ready (by simp))
  | scheduled =>
    dsimp only
    rw [if_pos hprevious]
    unfold startGroup
    rw [hstate]
    have hlacks : ¬ IsStaffed g := fun h => by simp [h.1] at hstate
    refine .bind (.bind (issue_course hw (.inr hstate) hlacks hS
      fun issued s' hroster hw' hstaffed hS' => .pure (.pure ?_)))
    exact hrunning issued.group true s' ⟨hroster, by simp [hstate], fun h => absurd hstate h,
      fun h => absurd h hlacks⟩ hw' hstaffed hS'
  | running =>
    dsimp only
    split
    · rename_i hless
      have hlacks : ¬ IsStaffed g := fun h => absurd hless (Nat.not_lt.2 h.2)
      refine .bind (issue_course hw (.inl hstate) hlacks hS
        fun issued s' hroster hw' hstaffed hS' => .pure ?_)
      exact hrunning issued.group false s' ⟨hroster, by simp [hstate], fun _ => hstate,
        fun h => absurd h hlacks⟩ hw' hstaffed hS'
    · rename_i hnot
      exact .pure (hrunning g false s ⟨.refl g, by simp [hstate], fun _ => hstate,
        fun _ => ⟨rfl, rfl⟩⟩ hw ⟨hstate, Nat.not_lt.1 hnot⟩ hS)

lemma exists_applied {c : Command} (h : r.state.next c ≠ none) : ∃ r', r.apply? c now = some r' :=
  Option.ne_none_iff_exists'.1 (mt Rollout.apply?_eq_none_iff.1 h)

/-- A rollout goes on where its state accepts the command. -/
lemma apply_course {c : Command} {Q : Rollout → Store → Prop} (hnext : r.state.next c ≠ none)
    (hQ : ∀ r', r.apply? c now = some r' → Q r' s) :
    Operation.Courses id now S fence (Operation.ofExcept (r.apply c now)) Q s := by
  obtain ⟨r', hr'⟩ : ∃ r', r.apply? c now = some r' := exists_applied hnext
  rw [Rollout.apply, hr']
  exact hQ r' hr'

/-- A rollout whose row is written stays on course if that is the outcome. -/
lemma OnCourse.last {r' : Rollout} (hs : Sound s') (hr : s'.rollout? id = some r')
    (hnone : taken? now r' = none) (hS : s'.progress = S) :
    OnCourse id now S s' ∧ AtRest id now s' :=
  ⟨.of_atRest hs hr (atRest_of_taken? hr hnone) hS, atRest_of_taken? hr hnone⟩

/-- Every group was passed, and the rollout is finished. -/
lemma finish_course {adv : Advance} {Q : Rollout × Advance → Store → Prop}
    (hw : Walked r front [] (.ofStore s)) (hS : (outcomeOver now r [] s).progress = S)
    (previous : Option RolloutGroup)
    (hQ : ∀ r', OnCourse r.id now S (s.withRollout r') ∧ AtRest r.id now (s.withRollout r') →
      r'.id = r.id → r'.state = .finished → Q (r', adv) (s.withRollout r')) :
    Operation.Courses r.id now S fence (walk fence now previous [] r adv) Q s := by
  refine .bind (apply_course (by simp [hw.running, RolloutState.next]) fun r' happly => ?_)
  have hstate : RolloutState.finished = r'.state := by
    simpa [hw.running, RolloutState.next] using Rollout.state_apply? happly
  have hall : ∀ x ∈ s.groupsOf r.id, x.releasesSuccessor = true := by
    have hgroups : s.groupsOf r.id = front ++ [] := hw.groups
    rw [hgroups, List.append_nil]
    exact hw.passed
  have hm : Move (fun _ => True) s (s.withRollout r') := .finish trivial hw.row hall happly
  have hrow : (s.withRollout r').rollout? r.id = some r' := by
    rw [rollout?_withRollout, if_pos (Rollout.id_of_apply happly).symm]
  have hend : (s.withRollout r').progress = S := by rw [← hS, outcomeOver, happly]
  have hnone : taken? now r' = none := by rw [taken?, ← hstate]
  have hlast := OnCourse.last (hw.settled.sound.move hm) hrow hnone hend
  exact .bind (commit_course (putRollout_run r' s) (hw.onCourse hS) hlast.1
    (.pure (hQ r' hlast (Rollout.id_of_apply happly) hstate.symm)))

/-- The group in front of the walk fails, and its rollout with it. -/
lemma fail_course {g' : RolloutGroup} {Q : Rollout × Advance → Store → Prop}
    (hw : Walked r front (g :: rest) (.ofStore s)) (hstaffed : IsStaffed g)
    (hS : (outcomeOver now r (g :: rest) s).progress = S) (hverdict : g.verdict = .failed)
    (hend : g.settle? g.verdict now = some g') (adv : Advance)
    (hQ : ∀ r', OnCourse r.id now S (s.withProgress r' [g']) ∧
        AtRest r.id now (s.withProgress r' [g']) →
      r'.id = r.id → r'.state = .paused ∨ r'.state = .error →
      Q (r', adv) (s.withProgress r' [g'])) :
    Operation.Courses r.id now S fence (do
      let r ← Operation.ofExcept (r.apply (.groupFailed g.errorAction) now)
      let r := { r with lastError := some (failureText g) }
      Operation.mapError .persistence (Operation.commit fence (putRolloutWithGroups r [g']))
      return (r, adv)) Q s := by
  have hsound : Sound s := hw.settled.sound
  refine .bind (apply_course (by cases g.errorAction <;> simp [hw.running, RolloutState.next])
    fun r' happly => ?_)
  have hm : Move (fun _ => True) s
      (s.withProgress { r' with lastError := some (failureText g) } [g']) :=
    .fail trivial hw.row hw.mem hstaffed hverdict hend happly
  have hrun : putRolloutWithGroups { r' with lastError := some (failureText g) } [g'] s =
      .ok ((), s.withProgress { r' with lastError := some (failureText g) } [g']) := by
    rw [hverdict] at hend
    obtain ⟨-, rfl⟩ := settle?_failed hend
    obtain ⟨hstored, -⟩ := hsound.mem_groupsOf.1 hw.mem
    have hname : NewRollout.isName r'.id = true := by
      rw [Rollout.id_of_apply happly]
      exact (hsound.rollout_key hw.row).2
    refine putRolloutWithGroups_run hsound.toKeyed hname
      (.singleton hstored rfl rfl fun _ ht => ht) fun x hx old hold => ?_
    obtain rfl := List.mem_singleton.1 hx
    obtain rfl := Option.some.inj (hstored.symm.trans hold)
    exact ⟨rfl, rfl, rfl⟩
  have hrow : (s.withProgress { r' with lastError := some (failureText g) } [g']).rollout? r.id =
      some { r' with lastError := some (failureText g) } := by
    rw [withProgress, rollout?_withGroups, rollout?_withRollout,
      if_pos (Rollout.id_of_apply happly).symm]
  have hstate : r'.state = .paused ∨ r'.state = .error := by
    have hnext := Rollout.state_apply? happly
    rw [hw.running] at hnext
    cases haction : g.errorAction <;> rw [haction] at hnext
    · exact .inl (Option.some.inj hnext).symm
    · exact .inr (Option.some.inj hnext).symm
  have hnone : taken? now { r' with lastError := some (failureText g) } = none := by
    rcases hstate with hstate | hstate <;> simp [taken?, hstate]
  have hfinal :
      (s.withProgress { r' with lastError := some (failureText g) } [g']).progress = S := by
    rw [← hS, outcomeOver_of_isStaffed hstaffed, hend]
    simp only [hverdict, if_true, happly]
  have hlast := OnCourse.last (hsound.move hm) hrow hnone hfinal
  exact .bind (commit_course hrun (hw.onCourse hS) hlast.1
    (.pure (hQ { r' with lastError := some (failureText g) } hlast
      (show r'.id = r.id from Rollout.id_of_apply happly) hstate)))

/-- The group in front of the walk ends well, and the walk goes on behind it. -/
lemma settle_course {g' : RolloutGroup} {Q : Unit → Store → Prop}
    (hw : Walked r front (g :: rest) (.ofStore s)) (hstaffed : IsStaffed g)
    (hS : (outcomeOver now r (g :: rest) s).progress = S) (hverdict : g.verdict ≠ .failed)
    (hend : g.settle? g.verdict now = some g')
    (hQ : ∀ s', Walked r (front ++ [g']) rest (.ofStore s') → g'.releasesSuccessor = true →
      (outcomeOver now r rest s').progress = S → Q () s') :
    Operation.Courses r.id now S fence
      (Operation.mapError RolloutError.persistence (Operation.commit fence (putGroup g'))) Q s := by
  have hsound : Sound s := hw.settled.sound
  have hm : Move (fun _ => True) s (s.withGroup g') :=
    .settle hw.row hw.running hw.mem hstaffed hverdict hend
  have hfinal : (outcomeOver now r rest (s.withGroup g')).progress = S := by
    rw [← hS, outcomeOver_of_isStaffed hstaffed, hend]
    simp only [hverdict, if_false]
  obtain ⟨-, outcome, rfl⟩ := settle?_eq_some hverdict hend
  have hstored := (hsound.mem_groupsOf.1 hw.mem).1
  have hrun := putGroup_run hsound.toKeyed (g := { g with
    state := .finished, outcome := some outcome, finishedAt := some now }) hstored rfl rfl rfl
  have hreplaced := hw.replace (.ofStore (hsound.move hm)) rfl rfl ⟨rfl, rfl, rfl, rfl⟩ rfl
  have hw' := Walked.pass hreplaced rfl
  exact commit_course hrun (hw.onCourse hS) (hw'.onCourse hfinal) (hQ _ hw' rfl hfinal)

/-- **The walk keeps its course and ends at rest.** -/
theorem walk_course {previous : Option RolloutGroup} (hw : Walked r front rest (.ofStore s))
    (hprevious : previous.all RolloutGroup.releasesSuccessor = true) (adv : Advance)
    (hS : (outcomeOver now r rest s).progress = S) :
    Operation.Courses r.id now S fence (walk fence now previous rest r adv)
      (fun _ s' => OnCourse r.id now S s' ∧ AtRest r.id now s') s := by
  -- the groups that were passed move to the front one by one
  induction rest generalizing front previous adv s with
  | nil => exact finish_course hw hS previous fun _ hlast _ _ => hlast
  | cons g rest ih =>
    refine .bind (enter_course hw hprevious hS (fun hg => ?_) (fun hstuck => ?_)
      fun g started s _ hw hstaffed hS => ?_)
    · have hpassed : (some g).all RolloutGroup.releasesSuccessor = true := hg
      exact ih (hw.pass hg) hpassed adv (outcomeOver_of_releases hg rest s ▸ hS)
    · refine .pure ⟨hw.onCourse hS, fun r' hr' _ => ?_⟩
      obtain rfl := Option.some.inj (hw.row.symm.trans hr')
      exact .inr ⟨hw.running, front, g, rest, hw.groups, hw.passed, .inl hstuck⟩
    dsimp only
    cases hend : g.settle? g.verdict now with
    | none =>
      refine .pure ⟨hw.onCourse hS, fun r' hr' _ => ?_⟩
      obtain rfl := Option.some.inj (hw.row.symm.trans hr')
      exact .inr ⟨hw.running, front, g, rest, hw.groups, hw.passed, .inr ⟨hstaffed, hend⟩⟩
    | some settled =>
      dsimp only
      split
      · rename_i hverdict
        exact fail_course hw hstaffed hS hverdict hend _ fun _ hlast _ _ => hlast
      · rename_i hverdict
        refine .bind (settle_course hw hstaffed hS hverdict hend fun s hw' hg hS' => ?_)
        have hpassed : (some settled).all RolloutGroup.releasesSuccessor = true := hg
        exact ih hw' hpassed _ hS'

/-! ## One step -/

/-- A rollout that is read exists. -/
lemma requireRollout_under {T : Terms} {Q : Rollout → Store → Prop}
    {E : RolloutError → Store → Prop} (hr : s.rollout? id = some r) (hQ : Q r s) :
    Operation.Under T (requireRollout id) Q E s := by
  have hread : Table.read s.rollouts id = .ok (some r) := Table.read_eq_some_iff.2 hr
  refine .bind (.mapError (.read (fun found hfound => ?_) fun e he => ?_))
  · obtain rfl := Except.ok.inj (hread.symm.trans hfound)
    exact .pure hQ
  · cases hread.symm.trans he

/-- A rollout that does not exist is not advanced. -/
lemma advance_missing (hnone : s.rollout? id = none) :
    Operation.Under .silent (advance fence id now) (fun _ _ => False) (fun _ _ => True) s := by
  refine .bind (.bind (.mapError (.read (fun found hfound => ?_) fun _ _ => trivial)))
  cases found with
  | none => exact .throw trivial
  | some r =>
    cases hnone.symm.trans (Table.read_eq_some_iff.1 hfound)

/-- A rollout that is taken up stays the same one. -/
lemma id_of_taken? {r₂ : Rollout} (h : taken? now r = some r₂) : r₂.id = r.id := by
  unfold taken? at h
  split at h
  · split at h
    · obtain ⟨r₁, hstart, hstarted⟩ := Option.bind_eq_some_iff.1 h
      exact (Rollout.id_of_apply hstarted).trans (Rollout.id_of_apply hstart)
    · cases h
  · exact Rollout.id_of_apply h
  · exact congrArg Rollout.id (Option.some.inj h).symm
  · cases h

/-- A rollout on its way to its groups moves on, and the outcome stays. -/
lemma order_course {c : Command} {Q : Unit → Store → Prop} {r' r₂ : Rollout}
    (h : OnCourse r.id now S s) (hr : s.rollout? r.id = some r) (hd : r.deleted = false)
    (hc : c.isPlain = true) (hdelete : c ≠ .delete) (happly : r.apply? c now = some r')
    (htaken : taken? now r = some r₂) (htaken' : taken? now r' = some r₂)
    (hQ : OnCourse r.id now S (s.withRollout r') →
      (s.withRollout r').rollout? r.id = some r' → Q () (s.withRollout r')) :
    Operation.Courses r.id now S fence (saveRollout fence r') Q s := by
  have hid := Rollout.id_of_apply happly
  have hd' : r'.deleted = false := by
    rw [(Rollout.apply?_eq_some happly).2]
    simp [hdelete, hd]
  have hm : Move (fun _ => True) s (s.withRollout r') := .order trivial hr hc happly
  have hrow : (s.withRollout r').rollout? r.id = some r' := by
    rw [rollout?_withRollout, if_pos hid.symm]
  have hsame : outcome r.id now (s.withRollout r') = outcome r.id now s := by
    simp only [outcome, hrow, hr, hd, hd', htaken, htaken', Bool.false_eq_true, if_false,
      groupsOf_withRollout]
    rw [withRollout_withRollout s ((id_of_taken? htaken).trans hid.symm)]
  have h' : OnCourse r.id now S (s.withRollout r') :=
    ⟨h.sound.move hm, ⟨r', hrow⟩, (congrArg Store.progress hsame).trans h.outcome_eq⟩
  exact commit_course (putRollout_run r' s) h h' (hQ h' hrow)

lemma deleted_of_apply {c : Command} {r' : Rollout} (happly : r.apply? c now = some r')
    (hdelete : c ≠ .delete) : r'.deleted = r.deleted := by
  rw [(Rollout.apply?_eq_some happly).2]
  simp [hdelete]

lemma state_of_apply {c : Command} {r' : Rollout} {state : RolloutState}
    (happly : r.apply? c now = some r') (hnext : r.state.next c = some state) : r'.state = state :=
  (Option.some.inj (hnext.symm.trans (Rollout.state_apply? happly))).symm

/-- A rollout that is due starts; one that is not is at rest. -/
lemma begin?_course {Q : Option Rollout → Store → Prop} (h : OnCourse r.id now S s)
    (hr : s.rollout? r.id = some r) (hd : r.deleted = false)
    (hnone : AtRest r.id now s → Q none s)
    (hsome : ∀ r', (r.state ≠ .ready → r' = r) → OnCourse r'.id now S (s.withRollout r') →
      (s.withRollout r').rollout? r'.id = some r' → r'.id = r.id → r'.deleted = false →
      r'.state ≠ .ready → Q (some r') (s.withRollout r')) :
    Operation.Courses r.id now S fence (begin? fence now r) Q s := by
  unfold begin?
  split
  · rename_i hready
    split
    · rename_i hdue
      have hstart : r.state.next .start = some .starting := by rw [hready]; rfl
      refine .bind (apply_course (by simp [hstart]) fun r' happly => .bind ?_)
      have hid := Rollout.id_of_apply happly
      have hstarting := state_of_apply happly hstart
      obtain ⟨r₂, hstarted⟩ : ∃ r₂, r'.apply? .started now = some r₂ :=
        exists_applied (by simp [hstarting, RolloutState.next])
      have htaken : taken? now r = some r₂ := by
        simp only [taken?, hready, hdue, if_true, happly]
        exact hstarted
      have htaken' : taken? now r' = some r₂ := by rw [taken?, hstarting]; exact hstarted
      refine order_course h hr hd rfl (by simp) happly htaken htaken' fun h' hr' => .pure ?_
      rw [← hid] at h' hr'
      exact hsome r' (absurd hready) h' hr' hid ((deleted_of_apply happly (by simp)).trans hd)
        (by simp [hstarting])
    · rename_i hdue
      exact .pure (hnone (atRest_of_taken? hr (by rw [taken?, hready]; simp [hdue])))
  · rename_i hready
    have hsame := withRollout_eq_self hr
    exact .pure (hsame ▸ hsome r (fun _ => rfl) (hsame.symm ▸ h) (hsame.symm ▸ hr) rfl hd hready)

/-- A rollout that is starting is taken up. -/
lemma takeUp_course {Q : Rollout → Store → Prop} (h : OnCourse r.id now S s)
    (hr : s.rollout? r.id = some r) (hd : r.deleted = false) (hready : r.state ≠ .ready)
    (hQ : ∀ r', (r.state ≠ .starting → r' = r) → OnCourse r'.id now S (s.withRollout r') →
      (s.withRollout r').rollout? r'.id = some r' → r'.id = r.id → r'.state ≠ .ready →
      r'.state ≠ .starting → Q r' (s.withRollout r')) :
    Operation.Courses r.id now S fence (takeUp fence now r) Q s := by
  unfold takeUp
  split
  · rename_i hstarting
    have hnext : r.state.next .started = some .running := by rw [hstarting]; rfl
    refine .bind (apply_course (by simp [hnext]) fun r' happly => .bind ?_)
    have hid := Rollout.id_of_apply happly
    have hrunning := state_of_apply happly hnext
    have htaken : taken? now r = some r' := by rw [taken?, hstarting]; exact happly
    have htaken' : taken? now r' = some r' := by rw [taken?, hrunning]
    refine order_course h hr hd rfl (by simp) happly htaken htaken' fun h' hr' => .pure ?_
    rw [← hid] at h' hr'
    exact hQ r' (absurd hstarting) h' hr' hid (by simp [hrunning]) (by simp [hrunning])
  · rename_i hstarting
    have hsame := withRollout_eq_self hr
    exact .pure (hsame ▸ hQ r (fun _ => rfl) (hsame.symm ▸ h) (hsame.symm ▸ hr) rfl hready hstarting)

/-- **A step keeps its course and ends at rest**, unless its fence turns it away. -/
theorem advance_course (h : OnCourse id now S s) :
    Operation.Courses id now S fence (advance fence id now)
      (fun _ s' => OnCourse id now S s' ∧ AtRest id now s') s := by
  obtain ⟨r, hr⟩ := h.row
  obtain rfl := (h.sound.rollout_key hr).1
  refine .bind (requireRollout_under hr ?_)
  dsimp only
  split
  · rename_i hd
    refine .pure ⟨h, fun r' hr' hd' => ?_⟩
    obtain rfl := Option.some.inj (hr.symm.trans hr')
    rw [hd] at hd'
    cases hd'
  rename_i hd
  refine .bind (begin?_course h hr (Bool.not_eq_true _ ▸ hd) (fun hrest => .pure ⟨h, hrest⟩)
    fun r₁ _ h hr hid₁ hd hready => ?_)
  generalize s.withRollout r₁ = s₁ at h hr ⊢
  rw [← hid₁]
  refine .bind (takeUp_course h hr hd hready fun r₂ _ h hr hid₂ hready hstarting => ?_)
  generalize s₁.withRollout r₂ = s₂ at h hr ⊢
  rw [← hid₂]
  split
  · rename_i hrun
    refine .bind (.mapError (.read (fun groups hlist => .bind ?_) fun e he => ?_))
    · rw [h.sound.listGroups_eq hr] at hlist
      have hw : Walked r₂ [] groups (.ofStore s₂) :=
        ⟨.ofStore h.sound, hr, hrun, Except.ok.inj hlist, by simp⟩
      exact (walk_course hw rfl _ (hw.outcome_eq ▸ h.outcome_eq)).mono
        (fun _ s' hs' => .pure hs') fun _ _ he => he
    · rw [h.sound.listGroups_eq hr] at he
      cases he
  · rename_i hrun
    refine .pure ⟨h, atRest_of_taken? hr ?_⟩
    cases hstate : r₂.state <;> simp_all [taken?]

/-! ## A step at rest -/

/-- The terms of a program that does nothing. -/
def idle : Terms := ⟨fun _ _ => False, fun _ _ => False, fun _ _ => True⟩

/-- The walk of a rollout at rest comes to its current group and ends there. -/
lemma walk_idle {previous : Option RolloutGroup} {adv : Advance}
    (hfront : ∀ x ∈ front, x.releasesSuccessor = true)
    (hg : g.IsStuck ∨ IsStaffed g ∧ g.settle? g.verdict now = none) :
    Operation.Under idle (walk fence now previous (front ++ g :: rest) r adv)
      (fun _ s' => s' = s) (fun _ _ => False) s := by
  induction front generalizing previous with
  | nil =>
    rcases hg with ⟨herror, hack⟩ | ⟨⟨hrun, hall⟩, hnone⟩
    · simp only [List.nil_append, walk, enter, herror, hack]
      exact rfl
    · simp only [List.nil_append, walk, enter, hrun, if_neg (Nat.not_lt.2 hall)]
      refine .bind (.pure ?_)
      dsimp only
      rw [hnone]
      exact rfl
  | cons x front ih =>
    obtain ⟨hx, hrest⟩ := List.forall_mem_cons.1 hfront
    have henter : enter fence now previous r x = pure .passed := by
      unfold enter
      unfold releasesSuccessor at hx
      cases hstate : x.state <;> simp_all
    rw [List.cons_append, walk, henter]
    exact .bind (.pure (ih hrest))

/-- A rollout that is not taken up is not at work, and if it is ready then it is not due. -/
lemma of_taken?_eq_none (h : taken? now r = none) :
    r.state ≠ .starting ∧ r.state ≠ .running ∧
      (r.state = .ready → r.startPolicy.isDue now = false) := by
  refine ⟨fun hstarting => ?_, fun hrun => ?_, fun hready => ?_⟩
  · obtain ⟨r', hr'⟩ : ∃ r', r.apply? .started now = some r' :=
      exists_applied (by simp [hstarting, RolloutState.next])
    simp [taken?, hstarting, hr'] at h
  · simp [taken?, hrun] at h
  · by_contra hdue
    have hstart : r.state.next .start = some .starting := by rw [hready]; rfl
    obtain ⟨r', hr'⟩ : ∃ r', r.apply? .start now = some r' := exists_applied (by simp [hstart])
    obtain ⟨r'', hr''⟩ : ∃ r'', r'.apply? .started now = some r'' :=
      exists_applied (by simp [state_of_apply hr' hstart, RolloutState.next])
    simp [taken?, hready, hdue, hr', hr''] at h

/-- **A step at rest does nothing.** -/
theorem advance_idle (h : Sound s) (hr : s.rollout? id = some r) (hrest : AtRest id now s) :
    Operation.Under idle (advance fence id now) (fun _ s' => s' = s) (fun _ _ => False) s := by
  obtain rfl := (h.rollout_key hr).1
  refine .bind (requireRollout_under hr ?_)
  dsimp only
  split
  · exact .pure rfl
  rename_i hd
  rcases hrest r hr (Bool.not_eq_true _ ▸ hd) with
    hnone | ⟨hrun, front, g, rest, hgroups, hfront, hg⟩
  · obtain ⟨hstarting, hrun, hdue⟩ := of_taken?_eq_none hnone
    by_cases hready : r.state = .ready
    · rw [begin?, if_pos hready, if_neg (Bool.not_eq_true _ ▸ hdue hready)]
      exact .bind (.pure (.pure rfl))
    rw [begin?, if_neg hready]
    refine .bind (.pure ?_)
    dsimp only
    rw [takeUp, if_neg hstarting]
    refine .bind (.pure ?_)
    rw [if_neg hrun]
    exact .pure rfl
  · have hready : r.state ≠ .ready := by simp [hrun]
    have hstarting : r.state ≠ .starting := by simp [hrun]
    rw [begin?, if_neg hready]
    refine .bind (.pure ?_)
    dsimp only
    rw [takeUp, if_neg hstarting]
    refine .bind (.pure ?_)
    rw [if_pos hrun]
    refine .bind (.mapError (.read (fun groups hlist => .bind ?_) fun e he => ?_))
    · rw [h.listGroups_eq hr, hgroups] at hlist
      obtain rfl := Except.ok.inj hlist
      exact (walk_idle hfront hg).mono (fun _ s' hs' => .pure hs') fun _ _ he => he
    · rw [h.listGroups_eq hr] at he
      cases he

/-! ## Steps that begin anew -/

variable {env : Surroundings} {w : World}

/-- A step from here that is not turned away by its fence succeeds, and it leaves the rollouts,
groups and actions of `S`. -/
def LeadsTo (id : RolloutId) (now : Nat) (S : Store) (w : World) : Prop :=
  ∀ (fence : Option Fence) (env : Surroundings), env.Gentle →
    match (ExceptT.run (advance fence id now)).run env w with
    | (.ok _, w') => SameProgress S w'.store
    | (.error _, _) => fence.isSome = true

/-- A step from here succeeds, changes no row and sends no message. -/
def Rests (id : RolloutId) (now : Nat) (w : World) : Prop :=
  ∀ (fence : Option Fence) (env : Surroundings),
    match (ExceptT.run (advance fence id now)).run env w with
    | (.ok _, w') => w'.store = w.store ∧ w'.dispatched = w.dispatched
    | (.error _, _) => False

lemma leadsTo_of_onCourse (h : OnCourse id now S.progress w.store) : LeadsTo id now S w := by
  intro fence env henv
  have hcourse : Operation.Courses id now S.progress fence (advance fence id now) _ w.store :=
    advance_course h
  obtain ⟨-, hend⟩ := Program.Under.run (fun a s => henv a s) hcourse
  split
  · rename_i adv w' hrun
    rw [hrun] at hend
    obtain ⟨hcourse, hrest⟩ := hend
    exact sameProgress_iff.2 (hcourse.progress_eq hrest)
  · rename_i e w' hrun
    rw [hrun] at hend
    exact hend.2

lemma rests_of_atRest (h : Sound w.store) (hr : w.store.rollout? id = some r)
    (hrest : AtRest id now w.store) : Rests id now w := by
  intro fence env
  have hidle : Operation.Under idle (advance fence id now) _ _ w.store := advance_idle h hr hrest
  have henv : ∀ a s, idle.meanwhile s (env.deliver a s).2 := fun _ _ => trivial
  obtain ⟨hall, hend⟩ := Program.Under.run henv hidle
  have hsilent : ∀ m ∈ (ExceptT.run (advance fence id now)).moments env w, m.message = none := by
    intro m hm
    cases hmessage : m.message with
    | none => rfl
    | some a => exact ((hall m hm).told a hmessage).1.elim
  have hdispatched := Program.dispatched_run (ExceptT.run (advance fence id now)) env w
  rw [List.filterMap_eq_nil_iff.2 hsilent, List.append_nil] at hdispatched
  split
  · rename_i adv w' hrun
    rw [hrun] at hend hdispatched
    exact ⟨hend, hdispatched⟩
  · rename_i e w' hrun
    rw [hrun] at hend
    exact hend

/-- A step that was cut off is on course. -/
lemma onCourse_of_cut (henv : env.Gentle) (h : OnCourse id now S w.store) (k : Nat) :
    OnCourse id now S ((ExceptT.run (advance fence id now)).runWrites env k w).2.store := by
  rw [← Program.run_cut]
  have hcourse : Operation.Courses id now S fence (advance fence id now) _ w.store :=
    advance_course h
  have hcut := Program.Under.cut hcourse k
  obtain ⟨-, hend⟩ := Program.Under.run (fun a s => henv a s) hcut
  split at hend
  · rename_i answer hanswer
    cases answer with
    | ok adv => exact hend.1
    | error e => exact hend.1
  · obtain ⟨s'', hbefore, -⟩ := hend
    exact hbefore

end Progression

namespace Run

open Progression

/-- **A step may begin anew.**  When a step succeeds and leaves `S`, then a step that was cut off
before any of its writes, or that lost its lease, can be repeated: it leaves the rollouts, groups
and actions of `S`.  Behind `S` another step does nothing. -/
theorem advance_restartable (run : Run) (id : RolloutId) (now : Nat) {fence : Option Fence}
    {env : Surroundings} (henv : env.Gentle) {adv : Advance}
    (hdone : ((ExceptT.run (advance fence id now)).run env run.world).1 = .ok adv) :
    let S := ((ExceptT.run (advance fence id now)).run env run.world).2.store
    (∀ (k : Nat) (fence' : Option Fence) (env' : Surroundings), env'.Gentle → ∀ w : World,
      SameProgress ((ExceptT.run (advance fence' id now)).runWrites env' k run.world).2.store
        w.store → LeadsTo id now S w) ∧
    (∀ w : World, SameProgress S w.store → Rests id now w) := by
  intro S
  have hsound : Sound run.world.store := run.sound
  obtain ⟨r, hr⟩ : ∃ r, run.world.store.rollout? id = some r := by
    cases hr : run.world.store.rollout? id with
    | some r => exact ⟨r, rfl⟩
    | none =>
      have hmissing : Operation.Under .silent (advance fence id now) _ _ run.world.store :=
        advance_missing hr
      have hsilent : ∀ a s, Terms.silent.meanwhile s (env.deliver a s).2 := fun _ _ => trivial
      obtain ⟨-, hnot⟩ := Program.Under.run hsilent hmissing
      rw [hdone] at hnot
      cases hnot
  have hstart : OnCourse id now (outcome id now run.world.store).progress run.world.store :=
    ⟨hsound, ⟨r, hr⟩, rfl⟩
  have hadvance : Operation.Courses id now _ fence (advance fence id now) _ run.world.store :=
    advance_course hstart
  obtain ⟨-, hend⟩ := Program.Under.run (fun a s => henv a s) hadvance
  rw [hdone] at hend
  obtain ⟨hcourse, hrest⟩ := hend
  have hS : S.progress = (outcome id now run.world.store).progress := hcourse.progress_eq hrest
  rw [← hS] at hstart
  refine ⟨fun k fence' env' henv' w hw => ?_, fun w hw => ?_⟩
  · exact leadsTo_of_onCourse ((onCourse_of_cut henv' hstart k).congr hw)
  · obtain ⟨r', hr'⟩ := (hcourse.congr hw).row
    exact rests_of_atRest (hcourse.congr hw).sound hr' (hrest.congr hw)

/-- A step starts the first group of a rollout.  Cut off before its third write it is repeated, and
then it is at rest. -/
theorem advance_restartable_threeStages :
    let w := Run.world (threeStages.take 4)
    let p := ExceptT.run (advance none "r" 5)
    let S := (p.run quiet w).2.store
    (S.rollout? "r").map (·.state) = some .running ∧
      LeadsTo "r" 5 S (p.runWrites quiet 2 w).2 ∧ Rests "r" 5 (p.run quiet w).2 := by
  have hgentle : quiet.Gentle := fun _ s => .refl s
  obtain ⟨adv, hdone⟩ : ∃ adv, ((ExceptT.run (advance none "r" 5)).run quiet
      (Run.world (threeStages.take 4))).1 = .ok adv := ⟨⟨.ready, .running, 1, 0⟩, by cbv⟩
  obtain ⟨hleads, hrests⟩ := advance_restartable (threeStages.take 4) "r" 5 hgentle hdone
  exact ⟨by cbv, hleads 2 none quiet hgentle _ (.refl _), hrests _ (.refl _)⟩

end Run

end StagedRollout
