/-
# Members that are left out

Devices that join a running group get their actions in a second write, and a scheduler may be cut
off between the two.  The next step of the rollout makes up for it: a group is judged only once
all its members have an action.  An operator, however, ends a group as it is, and a group that has
ended gets no more actions.  So the members of a finished rollout have their actions, except for
those whom an operator left out in this way (`Run.members_served`), and there may be such members
(`Run.not_all_served`).
-/
import StagedRollout.Proofs.Invariants
import StagedRollout.Proofs.Orders
import StagedRollout.Proofs.Store.Complete

namespace StagedRollout

open RolloutGroup Store

variable {allowed : Intent → Prop} {s s' : Store} {l : List Action} {id : RolloutId}
  {key : GroupId} {member : TargetId} {state : GroupState}

/-- A group that has ended stays as it is, but its failure may be acknowledged. -/
lemma RolloutGroup.Turn.of_done {source : RolloutState} {g g' : RolloutGroup}
    (h : Turn allowed source g g') (hdone : g.state.isDone = true) :
    g'.state = g.state ∧ g'.targets = g.targets := by
  cases h with
  | begun _ hopen => rcases hopen with hs | hs <;> simp [hs, GroupState.isDone] at hdone
  | joined _ hopen => simp [hopen] at hdone
  | judged _ hend => simp [(settle?_eq hend).1, GroupState.isDone] at hdone
  | triggered _ hend => simp [(trigger?_eq hend).1, GroupState.isDone] at hdone
  | acknowledged => exact ⟨rfl, rfl⟩

namespace Store

/-- A rollout is there and not deleted. -/
def Kept (s : Store) (id : RolloutId) : Prop := ∃ r, s.rollout? id = some r ∧ r.deleted = false

/-- A rollout that is not deleted has a group in some state, and a member of the group has no
action. -/
structure Lacks (s : Store) (id : RolloutId) (state : GroupState) (key : GroupId)
    (member : TargetId) : Prop where
  rollout : ∃ r, Table.read s.rollouts id = .ok (some r) ∧ r.deleted = false
  group : ∃ g, Table.read s.groups key = .ok (some g) ∧ g.rolloutId = id ∧ g.state = state ∧
    member ∈ g.targets
  action : Table.read s.actions (Action.idOf key member) = .ok none

lemma Sound.lacks_iff (h : Sound s) : Lacks s id state key member ↔
    Kept s id ∧
    (∃ g, s.group? key = some g ∧ g.rolloutId = id ∧ g.state = state ∧ member ∈ g.targets) ∧
      s.action? (Action.idOf key member) = none := by
  constructor
  · rintro ⟨hrollout, hgroup, haction⟩
    simp only [h.read_rollout, h.read_group, h.read_action, Except.ok.injEq]
      at hrollout hgroup haction
    exact ⟨hrollout, hgroup, haction⟩
  · rintro ⟨hrollout, hgroup, haction⟩
    refine ⟨?_, ?_, ?_⟩ <;>
      simpa only [h.read_rollout, h.read_group, h.read_action, Except.ok.injEq]

section

variable {r : Rollout} {g : RolloutGroup}

/-- In a group with as many actions as members no member lacks one. -/
lemma Sound.exists_action (h : Sound s) (hg : s.group? key = some g)
    (hr : s.rollout? g.rolloutId = some r) (hd : r.deleted = false)
    (hfull : g.targetCount ≤ g.counts.total) (hmember : member ∈ g.targets) :
    ∃ a, s.action? (Action.idOf key member) = some a := by
  obtain ⟨rfl, -⟩ := h.group_key hg
  have hid := (h.rollout_key hr).1
  exact (h.targetCount_le_total_iff (hid ▸ hr) hd (h.mem_groupsOf.2 ⟨hg, hid.symm⟩)).1 hfull
    member hmember

/-! ## One step -/

/-- A group that has ended gets no more actions. -/
lemma Step.action_none (hs : Sound s) (hstep : Step allowed s s') (hg : s.group? key = some g)
    (hdone : g.state.isDone = true) (hnone : s.action? (Action.idOf key member) = none) :
    s'.action? (Action.idOf key member) = none := by
  have hchange := hstep.action hs (Action.idOf key member)
  rw [hnone] at hchange
  generalize hrow : s'.action? (Action.idOf key member) = row at hchange ⊢
  cases hchange with
  | same => rfl
  | issued _ _ _ hg' hopen =>
    have hgroup := ((hs.step hstep).action_member (hs.isGroupId hg) hrow).1
    rw [hgroup, hg] at hg'
    obtain rfl := Option.some.inj hg'
    simp [hopen] at hdone

/-- An action of a rollout that is not deleted does not vanish. -/
lemma Step.action_none_before (hs : Sound s) (hstep : Step allowed s s')
    (hg : s.group? key = some g) (hr : s.rollout? g.rolloutId = some r) (hd : r.deleted = false)
    (hnone : s'.action? (Action.idOf key member) = none) :
    s.action? (Action.idOf key member) = none := by
  have hchange := hstep.action hs (Action.idOf key member)
  rw [hnone] at hchange
  generalize hrow : s.action? (Action.idOf key member) = row at hchange
  cases hchange with
  | same => rfl
  | removed _ hr' hdeleting =>
    obtain ⟨hgroup, -⟩ := hs.action_member (hs.isGroupId hg) hrow
    obtain ⟨g', hg', hof, -⟩ := hs.action_group hrow
    rw [hgroup, hg] at hg'
    obtain rfl := Option.some.inj hg'
    rw [← hof, hr] at hr'
    obtain rfl := Option.some.inj hr'
    simp [deleted_of_deleting hs hr hdeleting] at hd

/-- A rollout that is kept by a step was not deleted before. -/
lemma Kept.undeleted (h : Kept s' id) (hs : Sound s) (hstep : Step allowed s s')
    (hr : s.rollout? id = some r) : r.deleted = false := by
  obtain ⟨r', hr', hd'⟩ := h
  by_contra hd
  simp [hstep.deleted hs hr hr' (by simpa using hd)] at hd'

/-- A member without an action had none before either, if the group had the member. -/
lemma Lacks.before {source : GroupState} (h : Lacks s' id state key member) (hs : Sound s)
    (hstep : Step allowed s s') (hg : s.group? key = some g) (hof : g.rolloutId = id)
    (hsource : g.state = source) (hmember : member ∈ g.targets) :
    Lacks s id source key member := by
  obtain ⟨hkept, -, hnone⟩ := (hs.step hstep).lacks_iff.1 h
  obtain ⟨r, hr⟩ := hs.group_rollout hg
  have hd := hkept.undeleted hs hstep (hof ▸ hr)
  exact hs.lacks_iff.2 ⟨⟨r, hof ▸ hr, hd⟩, ⟨g, hg, hof, hsource, hmember⟩,
    hstep.action_none_before hs hg hr hd hnone⟩

/-- **Whoever has no action of a group that has ended gets none any more.** -/
theorem Lacks.step (h : Lacks s id state key member) (hs : Sound s) (hstep : Step allowed s s')
    (hdone : state.isDone = true) (hkept : Kept s' id) : Lacks s' id state key member := by
  obtain ⟨⟨r, hr, -⟩, ⟨g, hg, rfl, rfl, hmember⟩, hnone⟩ := hs.lacks_iff.1 h
  have hd := hkept.undeleted hs hstep hr
  refine (hs.step hstep).lacks_iff.2 ⟨hkept, ?_, hstep.action_none hs hg hdone hnone⟩
  have hchange := hstep.group hs key
  rw [hg] at hchange
  generalize s'.group? key = row at hchange ⊢
  cases hchange with
  | same => exact ⟨g, rfl, rfl, rfl, hmember⟩
  | counted hc =>
    refine ⟨_, rfl, ?_, ?_, ?_⟩ <;> rw [hc.rest]
    exact hmember
  | turned _ hturn =>
    obtain ⟨hstate, htargets⟩ := hturn.of_done hdone
    exact ⟨_, rfl, hturn.rolloutId, hstate, htargets ▸ hmember⟩
  | uncounted hr' hdeleting | removed hr' hdeleting =>
    obtain rfl := Option.some.inj (hr.symm.trans hr')
    simp [deleted_of_deleting hs hr hdeleting] at hd

/-- **Where a member without an action comes from.**  There was one before; or the group has not
ended, and the group or the member is new in it; or somebody ended the group while it was running
without an action for the member. -/
theorem Lacks.origin (h : Lacks s' id state key member) (hs : Sound s)
    (hstep : Step allowed s s') :
    Lacks s id state key member ∨
      (state.isDone = false ∧
        (state = .scheduled ∨ allowed .issue ∨ ∃ quota, allowed (.join quota))) ∨
      (state = .finished ∧ allowed (.trigger id) ∧ Lacks s id .running key member) := by
  obtain ⟨-, ⟨g', hg', rfl, rfl, hmember⟩, -⟩ := (hs.step hstep).lacks_iff.1 h
  have hchange := hstep.group hs key
  rw [hg'] at hchange
  generalize hrow : s.group? key = row at hchange
  cases hchange with
  | same => exact .inl (h.before hs hstep hrow rfl rfl hmember)
  | created _ hwaits => exact .inr (.inl ⟨by rw [hwaits]; rfl, .inl hwaits⟩)
  | @counted g _ hc =>
    obtain ⟨-, hrest⟩ := hc
    generalize g'.counts = counts at hrest
    subst hrest
    exact .inl (h.before hs hstep hrow rfl rfl hmember)
  | uncounted => exact .inl (h.before hs hstep hrow rfl rfl hmember)
  | @turned r g _ hr hturn =>
    generalize hsource : r.state = source at hturn
    cases hturn with
    | begun hmay hopen =>
      refine .inr (.inl ⟨?_, .inr (.inl hmay)⟩)
      rcases hopen with hg | hg
      · rw [begunWith_of_running hg, hg]
        rfl
      · rw [begunWith_of_scheduled hg]
        rfl
    | joined hmay hopen => exact .inr (.inl ⟨hopen, .inr (.inr ⟨_, hmay⟩)⟩)
    | acknowledged => exact .inl (h.before hs hstep hrow rfl rfl hmember)
    | judged hstaffed hend =>
      -- all its members had their actions
      obtain ⟨-, state, outcome, -, rfl⟩ := settle?_eq hend
      obtain ⟨-, -, hnone⟩ := hs.lacks_iff.1 (h.before hs hstep hrow rfl rfl hmember)
      have hd := (hs.agrees ((hs.rollout_key hr).1 ▸ hr)).deleted_eq_false_of_running hsource
      obtain ⟨a, ha⟩ := hs.exists_action hrow hr hd hstaffed.2 hmember
      cases hnone.symm.trans ha
    | triggered hmay hend =>
      obtain ⟨hrun, rfl⟩ := trigger?_eq hend
      exact .inr (.inr ⟨rfl, hmay, h.before hs hstep hrow rfl hrun hmember⟩)

end

end Store

/-! ## Trails -/

/-- A rollout that is kept was kept all the way. -/
lemma Trail.kept {r : Rollout} (h : Trail (Step allowed) s l s') (hs : Sound s)
    (hr : s.rollout? id = some r) (hkept : Kept s' id) : Kept s id := by
  -- from the end on, since what is deleted stays deleted
  induction h generalizing r with
  | nil s => exact hkept
  | cons hstep _ ih =>
    obtain ⟨r', hr'⟩ := hstep.exists_rollout hr
    exact ⟨r, hr, (ih (hs.step hstep) hr' hkept).undeleted hs hstep hr⟩

/-- Whoever has no action of a group that has ended is left out for good. -/
lemma Trail.keeps_lacking (h : Trail (Step allowed) s l s') (hs : Sound s)
    (hlacks : Lacks s id state key member) (hdone : state.isDone = true) (hkept : Kept s' id) :
    Lacks s' id state key member := by
  induction h with
  | nil s => exact hlacks
  | cons hstep hrest ih =>
    obtain ⟨⟨r, hr, -⟩, -⟩ := hs.lacks_iff.1 hlacks
    obtain ⟨r', hr'⟩ := hstep.exists_rollout hr
    have hs' := hs.step hstep
    exact ih hs' (hlacks.step hs hstep hdone (hrest.kept hs' hr' hkept)) hkept

/-- While nobody does anything but end groups, running groups and their members are as before. -/
lemma Trail.lacking_before (h : Trail (Step allowed) s l s')
    (honly : ∀ d, allowed d → ∃ id, d = .trigger id) (hs : Sound s)
    (hlacks : Lacks s' id .running key member) : Lacks s id .running key member := by
  induction h with
  | nil s => exact hlacks
  | cons hstep _ ih =>
    rcases (ih (hs.step hstep) hlacks).origin hs hstep with
      hold | ⟨-, hwaits | hmay | ⟨quota, hmay⟩⟩ | ⟨hend, -⟩
    · exact hold
    · cases hwaits
    · obtain ⟨_, heq⟩ := honly _ hmay
      cases heq
    · obtain ⟨_, heq⟩ := honly _ hmay
      cases heq
    · cases hend

/-! ## Happenings -/

namespace Activity

lemma May.triggerNext_eq {a : Activity} (h : a.May (.trigger id)) :
    ∃ m, a = .triggerNext m id := by
  cases h with
  | trigger => exact ⟨_, rfl⟩
  | drive _ hd => cases hd

lemma May.trigger_eq {m : Operator} {d : Intent} (h : (Activity.triggerNext m id).May d) :
    d = .trigger id := by
  cases h with
  | trigger => rfl
  | order horder => simp [order?] at horder
  | drive ha => cases ha

end Activity

/-- An operator ends the running group of a rollout, a member of which has no action yet, and thus
leaves the member out. -/
structure Happening.LeavesOut (h : Happening) (w : World) (id : RolloutId) (key : GroupId)
    (member : TargetId) : Prop where
  order : ∃ m, h.activity = .triggerNext m id
  before : w.store.Lacks id .running key member
  behind : (h.perform w).store.Lacks id .finished key member

/-! ## Runs -/

namespace Run

/-- What holds behind a run and not in an empty store came with one of the happenings. -/
lemma exists_cause {P : Store → Prop} (run : Run) (hempty : ¬ P .empty) (hP : P run.store) :
    ∃ (before : Run) (h : Happening) (later : Run), run = before ++ h :: later ∧
      ¬ P before.store ∧ P (before ++ [h]).store := by
  induction run using List.reverseRecOn with
  | nil => exact absurd hP hempty
  | append_singleton before h ih =>
    by_cases hbefore : P (Run.store before)
    · obtain ⟨first, x, later, rfl, hnot, hyes⟩ := ih hbefore
      exact ⟨first, x, later ++ [h], by simp, hnot, hyes⟩
    · exact ⟨before, h, [], rfl, hbefore, hP⟩

/-- Whoever is left out behind a happening, and was not before, is left out by an operator. -/
lemma leavesOut {run : Run} {h : Happening} (hlacks : (run ++ [h]).store.Lacks id state key member)
    (hdone : state.isDone = true) (hnot : ¬ run.store.Lacks id state key member) :
    h.LeavesOut run.world id key member := by
  obtain ⟨t, t', _, _, hbefore, hfirst, hstep, hthen, -⟩ :=
    (run.proceeds h).exists_break (P := fun s => ¬ Lacks s id state key member) hnot
      (not_not.2 hlacks)
  rcases (not_not.1 hthen).origin (hbefore.sound run.sound) hstep with
    hold | ⟨hopen, -⟩ | ⟨rfl, hmay, hrunning⟩
  · exact absurd hold hfirst
  · simp [hopen] at hdone
  · obtain ⟨m, hm⟩ := hmay.triggerNext_eq
    refine ⟨⟨m, hm⟩, hbefore.lacking_before (fun d hd => ?_) run.sound hrunning, ?_⟩
    · rw [hm] at hd
      exact ⟨id, hd.trigger_eq⟩
    · rw [← store_concat]
      exact hlacks

/-- **No member is left out but by an operator.**  The members of the groups of a finished rollout
have an action each, except for those without one when an operator ended their group. -/
theorem members_served (run : Run) {id : RolloutId} {r : Rollout}
    (hr : Table.read run.store.rollouts id = .ok (some r)) (hfinished : r.state = .finished) :
    ∃ groups, Lists run.store id groups ∧ ∀ g ∈ groups, ∀ t ∈ g.targets,
      (∃ a, Table.read run.store.actions (Action.idOf g.id t) = .ok (some a) ∧
          a.groupId = g.id ∧ a.targetId = t) ↔
        ∀ (before : Run) (h : Happening) (later : Run), run = before ++ h :: later →
          ¬ h.LeavesOut before.world id g.id t := by
  have hs := run.sound
  have hrow : run.store.rollout? id = some r := Table.read_eq_some_iff.1 hr
  obtain rfl := (hs.rollout_key hrow).1
  have hd : r.deleted = false := by
    by_contra hd
    have hstate := (hs.agrees hrow).deleted_iff.1 (by simpa using hd)
    simp [hfinished] at hstate
  have hkept : Kept run.store r.id := ⟨r, hrow, hd⟩
  refine ⟨_, hs.lists hrow hd, fun g hg t ht => ⟨?_, fun hnever => ?_⟩⟩
  -- whoever was left out by an operator, still is
  · rintro ⟨a, ha, -⟩ before h later rfl hleft
    have hbehind : (Run.store (before ++ [h])).Lacks r.id .finished g.id t := by
      rw [store_concat]
      exact hleft.behind
    have htrail := Run.continues (before ++ [h]) later
    rw [List.append_assoc, List.singleton_append] at htrail
    have hlacks := htrail.keeps_lacking (Run.sound _) hbehind rfl hkept
    cases hlacks.action.symm.trans ha
  -- and only operators leave members out
  · obtain ⟨hstored, hof⟩ := hs.mem_groupsOf.1 hg
    have hdone : g.state.isDone = true := by
      rcases (hs.inOrder hrow hd).finished hfinished g hg with hstate | ⟨hstate, -⟩ <;>
        simp [hstate, GroupState.isDone]
    rcases hrow' : run.store.action? (Action.idOf g.id t) with _ | a
    · have hlacks : run.store.Lacks r.id g.state g.id t :=
        hs.lacks_iff.2 ⟨hkept, ⟨g, hstored, hof, rfl, ht⟩, hrow'⟩
      have hempty : ¬ Store.Lacks .empty r.id g.state g.id t := fun hlacks => by
        obtain ⟨x, hx, -⟩ := hlacks.rollout
        cases hx
      obtain ⟨before, h, later, rfl, hnot, hyes⟩ :=
        run.exists_cause (P := fun s => s.Lacks r.id g.state g.id t) hempty hlacks
      exact absurd (leavesOut hyes hdone hnot) (hnever before h later rfl)
    · exact ⟨a, Table.read_eq_some_iff.2 hrow', hs.action_member (hs.isGroupId hstored) hrow'⟩

/-! ### Somebody who is left out -/

/-- A rollout for the one device that is there. -/
def single : NewRollout := { plan with groups := .explicit [["a"]] }

/-- The rollout is resolved again, but the scheduler is cut off behind the first write. -/
def interruption : Happening where
  activity := .refresh ⟨.ofStore, .standard, 0⟩ none "r" 6
  surroundings := quiet
  limit := some 1
  gentle := fun _ s => .refl s
  calm := Resolver.ofStore_calm

/-- A second device joins the running group, but the operator ends the group before the device
gets an action. -/
def leftBehind : Run :=
  [registration "a",
    undisturbed (.create ⟨none, .standard, false, 30000, "operator"⟩ .ofStore single)
      Resolver.ofStore_calm,
    cycle 5, registration "b", interruption,
    undisturbed (.triggerNext ⟨none, .standard, false, 30000, "operator"⟩ "r") trivial, cycle 8]

/-- The rollout behind the run. -/
def completed : Rollout where
  id := "r"
  name := "r"
  description := none
  targetFilter := "id==*"
  distribution := "d"
  groupIds := ["r:0000"]
  totalTargets := 2
  state := .finished
  errorAction := .pause
  startPolicy := .auto
  resolveMode := .live
  actionType := .forced
  weight := 0
  deleted := false
  lastError := none
  createdAt := 0
  updatedAt := 8
  lastResolvedAt := 5

/-- Its one group, which counts an action less than it has members. -/
def cutShort : RolloutGroup where
  id := "r:0000"
  rolloutId := "r"
  index := 0
  name := "group-1"
  targets := ["a", "b"]
  targetCount := 2
  successCondition := .threshold 100
  errorCondition := none
  errorAction := .pause
  state := .finished
  outcome := some .triggered
  counts := ⟨1, 0, 0, 0, 0, 0, 0⟩
  errorAcknowledged := false
  startedAt := some 5
  finishedAt := some 8

lemma read_completed : Table.read leftBehind.store.rollouts "r" = .ok (some completed) := by cbv

lemma read_cutShort : Table.read leftBehind.store.groups "r:0000" = .ok (some cutShort) := by cbv

lemma read_missing : Table.read leftBehind.store.actions "r:0000:b" = .ok none := by cbv

theorem members_served_leftBehind :
    ∃ (before : Run) (h : Happening) (later : Run), leftBehind = before ++ h :: later ∧
      h.LeavesOut before.world "r" "r:0000" "b" := by
  obtain ⟨groups, hlists, hserved⟩ := members_served leftBehind read_completed rfl
  have hgroup : cutShort ∈ groups := (hlists.stored _).2 ⟨"r:0000", read_cutShort, rfl⟩
  by_contra hnever
  obtain ⟨a, ha, -⟩ := (hserved cutShort hgroup "b" (by decide)).2
    fun before h later heq hleft => hnever ⟨before, h, later, heq, hleft⟩
  cases read_missing.symm.trans ha

/-- Not all members of a finished rollout have an action. -/
theorem not_all_served :
    ¬ ∀ (run : Run) (id : RolloutId) (r : Rollout),
      Table.read run.store.rollouts id = .ok (some r) → r.state = .finished →
      ∀ (key : GroupId) (g : RolloutGroup), Table.read run.store.groups key = .ok (some g) →
        g.rolloutId = id → ∀ t ∈ g.targets,
          ∃ a, Table.read run.store.actions (Action.idOf key t) = .ok (some a) := by
  intro hall
  obtain ⟨a, ha⟩ := hall leftBehind "r" completed read_completed rfl "r:0000" cutShort
    read_cutShort rfl "b" (by decide)
  cases read_missing.symm.trans ha

end Run

end StagedRollout
