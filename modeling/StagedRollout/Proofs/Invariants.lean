/-
# What holds behind every run

The order of a progression, the agreement of counters and rows, the members and sizes of groups,
and the history of actions, each as it shows in the tables of the store that a run leaves.  All of
it is read off the invariants that the steps of a run keep (`Run.trail`).
-/
import StagedRollout.Proofs.Runs
import StagedRollout.Proofs.Store.Sizes

namespace StagedRollout

open RolloutGroup Store

namespace Store

/-- The groups that a store lists for a rollout are all that it has, from index zero on. -/
structure Lists (s : Store) (id : RolloutId) (groups : List RolloutGroup) : Prop where
  listed : s.listGroups id = .ok groups
  stored : ∀ g, g ∈ groups ↔ ∃ key, Table.read s.groups key = .ok (some g) ∧ g.rolloutId = id
  indices : groups.map (·.index) = List.range groups.length

variable {s : Store}

lemma Sound.lists {id : RolloutId} {r : Rollout} (h : Sound s) (hr : s.rollout? id = some r)
    (hd : r.deleted = false) : Lists s id (s.groupsOf id) where
  listed := h.listGroups_eq hr
  stored g := by
    rw [h.mem_groupsOf]
    constructor
    · rintro ⟨hg, hof⟩
      exact ⟨g.id, Table.read_eq_some_iff.2 hg, hof⟩
    · rintro ⟨key, hread, hof⟩
      have hg : s.group? key = some g := Table.read_eq_some_iff.1 hread
      obtain ⟨rfl, -⟩ := h.group_key hg
      exact ⟨hg, hof⟩
  indices := ((h.agrees hr).roster hd).indices

/-! ## The order of a progression -/

/-- The groups of a rollout, in the order of their indices, are in keeping with the order of a
progression and with the state of the rollout. -/
structure InOrder (s : Store) (r : Rollout) (groups : List RolloutGroup) : Prop where
  parts : ∃ passed current waiting, groups = passed ++ current ++ waiting ∧
    (∀ g ∈ passed, g.state = .finished ∨ g.state = .error ∧ g.errorAcknowledged = true) ∧
    current.length ≤ 1 ∧
    (∀ g ∈ current, g.state = .running ∨ g.state = .error ∧ g.errorAcknowledged = false) ∧
    ∀ g ∈ waiting, g.state = .scheduled ∧ g.counts = .zero ∧ s.listActions g.id = .ok []
  unstarted : r.state ∈ [.creating, .waitingForApproval, .approvalDenied, .ready, .starting] →
    ∀ g ∈ groups, g.state = .scheduled
  running : r.state = .running →
    ∀ g ∈ groups, ¬ (g.state = .error ∧ g.errorAcknowledged = false)
  finished : r.state = .finished →
    ∀ g ∈ groups, g.state = .finished ∨ g.state = .error ∧ g.errorAcknowledged = true
  paused : r.state = .paused →
    ((∃ g ∈ groups, g.state = .error ∧ g.errorAcknowledged = false) ↔ r.lastError.isSome = true)
  error : r.state = .error → r.lastError.isSome = true

lemma releasesSuccessor_iff {g : RolloutGroup} : g.releasesSuccessor = true ↔
    g.state = .finished ∨ g.state = .error ∧ g.errorAcknowledged = true := by
  cases hs : g.state <;> simp [releasesSuccessor, hs]

/-- A group without counts has no actions. -/
lemma Sound.listActions_eq_nil {id : GroupId} {g : RolloutGroup} (h : Sound s)
    (hg : s.group? id = some g) (hzero : g.counts = .zero) : s.listActions id = .ok [] := by
  have htally : ∀ status, s.tally id status = 0 := by
    intro status
    rw [← h.counted hg status, hzero]
    cases status <;> rfl
  have hnone := s.tally_eq_zero_iff.1 htally
  have hempty : s.actionsOf id = [] := by
    refine List.eq_nil_iff_forall_not_mem.2 fun a ha => ?_
    obtain ⟨hstored, hgroup⟩ := h.mem_actionsOf.1 ha
    exact hnone a.id a hstored hgroup
  rw [h.listActions_group_eq (h.isGroupId hg), hempty]

lemma Sound.inOrder {r : Rollout} (h : Sound s) (hr : s.rollout? r.id = some r)
    (hd : r.deleted = false) : InOrder s r (s.groupsOf r.id) := by
  have hagrees := h.agrees hr
  have hfits : ∀ state, r.state = state → Fits state r.lastError (s.groupsOf r.id) := by
    rintro state rfl
    exact hagrees.fits hd
  refine ⟨?_, fun hstate => ?_, fun hstate => (hfits _ hstate).1, fun hstate g hg => ?_,
    fun hstate => (hfits _ hstate).1.symm, fun hstate => hfits _ hstate⟩
  · obtain ⟨passed, current, waiting, heq, hpassed, hone, hcurrent, hwaiting⟩ :=
      (hagrees.staged hd).parts
    refine ⟨passed, current, waiting, heq, fun g hg => releasesSuccessor_iff.1 (hpassed g hg),
      hone, fun g hg => ?_, fun g hg => ?_⟩
    · obtain ⟨hstate, hack⟩ := hcurrent g hg
      exact hstate.imp_right fun hs => ⟨hs, hack⟩
    · obtain ⟨hstate, hzero, -⟩ := hwaiting g hg
      have hmem : g ∈ s.groupsOf r.id := by
        rw [heq]
        exact List.mem_append_right _ hg
      exact ⟨hstate, hzero, h.listActions_eq_nil (h.mem_groupsOf.1 hmem).1 hzero⟩
  · simp only [List.mem_cons, List.not_mem_nil, or_false] at hstate
    rcases hstate with hs | hs | hs | hs | hs
    · exact hfits _ hs
    · exact hfits _ hs
    · exact hfits _ hs
    · exact hfits _ hs
    -- a rollout that is starting has no error either
    · exact (hfits _ hs).1
  · exact releasesSuccessor_iff.1 (hfits _ hstate g hg)

/-! ## Counters and references -/

/-- Counters agree with rows, and rows refer to rows that exist. -/
structure Accounted (s : Store) : Prop where
  /-- The counter of a status is the number of the group's actions with that status. -/
  counts : ∀ key row, s.groups.find? key = some row → ∃ g, row = .intact g ∧ key = g.id ∧
    ∀ status, g.counts.get status =
      (Table.rows s.actions).countP fun a => a.groupId == g.id && a.status == status
  /-- An action belongs to a group of a rollout, and its device is a member. -/
  actions : ∀ key row, s.actions.find? key = some row → ∃ a g r, row = .intact a ∧
    key = a.groupId ++ ":" ++ a.targetId ∧ s.groups.find? a.groupId = some (.intact g) ∧
    s.rollouts.find? g.rolloutId = some (.intact r) ∧ a.targetId ∈ g.targets

lemma Sound.accounted (h : Sound s) : Accounted s where
  counts key row hrow := by
    obtain ⟨g, rfl⟩ := h.groups_intact key row hrow
    have hg : s.group? key = some g := Table.intact?_eq_some_iff.2 hrow
    obtain ⟨rfl, -⟩ := h.group_key hg
    exact ⟨g, rfl, rfl, h.counted hg⟩
  actions key row hrow := by
    obtain ⟨a, rfl⟩ := h.actions_intact key row hrow
    have ha : s.action? key = some a := Table.intact?_eq_some_iff.2 hrow
    obtain ⟨hkey, hid⟩ := h.action_key ha
    obtain ⟨g, hg, -, hmember⟩ := h.action_group ha
    obtain ⟨r, hr⟩ := h.group_rollout hg
    exact ⟨a, g, r, rfl, hkey.symm.trans hid, Table.intact?_eq_some_iff.1 hg,
      Table.intact?_eq_some_iff.1 hr, hmember⟩

/-! ## Members and sizes -/

/-- The groups of a rollout divide its devices among them, within a quota. -/
structure Divides (quota : Quota) (r : Rollout) (groups : List RolloutGroup) : Prop where
  ids : r.groupIds = groups.map (·.id)
  sizes : ∀ g ∈ groups, g.targetCount = g.targets.length
  disjoint : (groups.flatMap (·.targets)).Nodup
  total : (groups.map (·.targetCount)).sum = r.totalTargets
  group_le : ∀ g ∈ groups, g.targetCount ≤ quota.maxActionsPerGroup
  total_le : r.totalTargets ≤ quota.maxActions

lemma Sound.divides {quota : Quota} {r : Rollout} (h : Sound s) (hq : WithinQuota quota s)
    (hr : s.rollout? r.id = some r) (hd : r.deleted = false) :
    Divides quota r (s.groupsOf r.id) where
  ids := ((h.agrees hr).roster hd).ids.symm
  sizes := ((h.agrees hr).roster hd).sizes
  disjoint := ((h.agrees hr).roster hd).disjoint
  total := ((h.agrees hr).roster hd).total
  group_le _ hg := hq.groups (h.mem_groupsOf.1 hg).1
  total_le := hq.rollouts hr

end Store

/-! ## Runs -/

namespace Run

lemma recorded (run : Run) : Recorded run.store run.created :=
  ((run.trail run.within_any).1.invariant (J := fun s history => Sound s ∧ Recorded s history) []
    (fun _ _ _ h hs => ⟨h.1.step hs, h.2.step h.1 hs⟩) ⟨sound_empty, recorded_empty⟩).2

lemma withinQuota {quota : Quota} (run : Run) (hquota : run.Within (· = quota)) :
    WithinQuota quota run.store :=
  (run.trail hquota).1.keeps sound_empty (fun _ _ h hs hq => hq.step h hs)
    (withinQuota_empty quota)

/-- **The groups of a rollout progress in order**: those that let their successor start come
first, then at most one that is running or has failed, then those that wait and have had no
action. -/
theorem groups_in_order (run : Run) {id : RolloutId} {r : Rollout}
    (hr : Table.read run.store.rollouts id = .ok (some r)) (hd : r.deleted = false) :
    ∃ groups, Lists run.store id groups ∧ InOrder run.store r groups := by
  have hrow : run.store.rollout? id = some r := Table.read_eq_some_iff.1 hr
  obtain rfl := (run.sound.rollout_key hrow).1
  exact ⟨_, run.sound.lists hrow hd, run.sound.inOrder hrow hd⟩

/-! ### A run with every part -/

/-- Messages arrive and the clock goes on by a second at every question. -/
def quiet : Surroundings := ⟨fun n => 1000 * n, fun _ s => (.ok (), s)⟩

/-- An activity that nobody disturbs. -/
def undisturbed (activity : Activity) (calm : activity.Calm) : Happening :=
  ⟨activity, quiet, none, fun _ s => .refl s, calm⟩

/-- A device is registered. -/
def registration (id : TargetId) : Happening :=
  undisturbed (.putTarget ⟨id, id, .empty, [], 0, none⟩) trivial

/-- A rollout for all devices that start with three of them. -/
def plan : NewRollout :=
  { NewRollout.standard "r" "id==*" "d" (.explicit [["a"], ["b"], ["c"]]) with
    startPolicy := .auto
    resolveMode := .live }

/-- In what is run here patterns may be of any size. -/
scoped instance : Wildcard.Limit := Wildcard.unlimited

/-- A scheduler that resolves live rollouts in every cycle. -/
def scheduler : Scheduler :=
  ⟨.ofStore "scheduler" 30000, some ⟨.ofStore, .standard, 0⟩, .standard⟩

/-- A cycle of the scheduler at a time in seconds. -/
def cycle (now : Nat) : Happening :=
  undisturbed (.cycle scheduler now .empty)
    ⟨RolloutLock.ofStore_calm _ _, fun _ hlive => Option.some.inj hlive ▸ Resolver.ofStore_calm⟩

/-- Three devices are registered. -/
def registered : Run := [registration "a", registration "b", registration "c"]

/-- The rollout is made, and it has to be approved or not. -/
def making (approval : Bool) : Happening :=
  undisturbed (.create ⟨none, .standard, approval, 30000, "operator"⟩ .ofStore plan)
    Resolver.ofStore_calm

/-- Three devices get a rollout in three stages.  The first one is done and the second one is at
work when a fourth one joins the last stage. -/
def threeStages : Run :=
  [registration "a", registration "b", registration "c",
    undisturbed (.create ⟨none, .standard, false, 30000, "operator"⟩ .ofStore plan)
      Resolver.ofStore_calm,
    cycle 5, undisturbed (.report none ⟨"r:0000:a", .finishedSuccess, 6⟩) trivial,
    registration "d", cycle 7]

/-- The rollout is deleted. -/
def deletion : Happening :=
  undisturbed (.delete ⟨none, .standard, false, 30000, "operator"⟩ "r") trivial

/-- Cleanup passes long after the last report. -/
def reclaiming : Happening := undisturbed (.cleanup 60 100) trivial

/-- The rollout behind the run. -/
def midway : Rollout where
  id := "r"
  name := "r"
  description := none
  targetFilter := "id==*"
  distribution := "d"
  groupIds := ["r:0000", "r:0001", "r:0002"]
  totalTargets := 4
  state := .running
  errorAction := .pause
  startPolicy := .auto
  resolveMode := .live
  actionType := .forced
  weight := 0
  deleted := false
  lastError := none
  createdAt := 0
  updatedAt := 5
  lastResolvedAt := 7

lemma read_threeStages : Table.read threeStages.store.rollouts "r" = .ok (some midway) := by cbv

theorem groups_in_order_threeStages :
    ∃ groups, Lists threeStages.store "r" groups ∧ InOrder threeStages.store midway groups :=
  groups_in_order threeStages read_threeStages rfl

/-- **Counters agree with rows**, and every action belongs to a member of a stored group. -/
theorem counters_agree (run : Run) : Accounted run.store := run.sound.accounted

/-- **The groups of a rollout divide its devices among them**, within the quota of the run. -/
theorem devices_divided {quota : Quota} (run : Run) (hquota : run.Within (· = quota))
    {id : RolloutId} {r : Rollout} (hr : Table.read run.store.rollouts id = .ok (some r))
    (hd : r.deleted = false) :
    ∃ groups, Lists run.store id groups ∧ Divides quota r groups := by
  have hrow : run.store.rollout? id = some r := Table.read_eq_some_iff.1 hr
  obtain rfl := (run.sound.rollout_key hrow).1
  exact ⟨_, run.sound.lists hrow hd, run.sound.divides (run.withinQuota hquota) hrow hd⟩

lemma within_threeStages : threeStages.Within (· = .standard) := by
  refine List.forall_mem_cons.2 ⟨trivial, List.forall_mem_cons.2 ⟨trivial,
    List.forall_mem_cons.2 ⟨trivial, List.forall_mem_cons.2 ⟨rfl, List.forall_mem_cons.2 ⟨?_,
    List.forall_mem_cons.2 ⟨trivial, List.forall_mem_cons.2 ⟨trivial,
    List.forall_mem_singleton.2 ?_⟩⟩⟩⟩⟩⟩⟩ <;>
      exact fun _ hlive => Option.some.inj hlive ▸ rfl

theorem devices_divided_threeStages :
    ∃ groups, Lists threeStages.store "r" groups ∧ Divides .standard midway groups :=
  devices_divided threeStages within_threeStages read_threeStages rfl

/-- **No device gets a second action from a rollout**, whatever becomes of the first one, and
devices are told about every action once, in the order in which the actions are created. -/
theorem actions_once (run : Run) :
    (run.created.Pairwise fun a b => ¬ (a.rolloutId = b.rolloutId ∧ a.targetId = b.targetId)) ∧
      run.world.dispatched = run.created ∧
      ∀ key a, Table.read run.store.actions key = .ok (some a) →
        ∃ b ∈ run.created, b.SameTask a := by
  refine ⟨run.recorded.distinct, (run.trail run.within_any).2.told, fun key a hread => ?_⟩
  exact run.recorded.stored (Table.read_eq_some_iff.1 hread)

example : threeStages.created.map (·.id) = ["r:0000:a", "r:0001:b"] := by cbv

end Run

end StagedRollout
