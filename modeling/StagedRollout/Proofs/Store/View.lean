/-
# Views of a store

What a store says about rollouts, groups and actions: the row with an id, the groups of a rollout
and the actions of a group in the order of their ids, and the number of a group's actions with a
status.  The writes that transactions are made of are functions on stores here, with one equation
for what each of them does to a view.
-/
import StagedRollout.Proofs.Store.Rows
import StagedRollout.Store.Basic

namespace StagedRollout.Store

/-! ## Rows -/

/-- The rollout with an id. -/
def rollout? (s : Store) (id : RolloutId) : Option Rollout := Table.intact? s.rollouts id

/-- The group with an id. -/
def group? (s : Store) (id : GroupId) : Option RolloutGroup := Table.intact? s.groups id

/-- The action with an id. -/
def action? (s : Store) (id : ActionId) : Option Action := Table.intact? s.actions id

/-- The groups of a rollout, in the order of their ids. -/
def groupsOf (s : Store) (id : RolloutId) : List RolloutGroup :=
  (Table.rows s.groups).filter fun g => g.rolloutId == id

/-- The actions of a group, in the order of their ids. -/
def actionsOf (s : Store) (id : GroupId) : List Action :=
  (Table.rows s.actions).filter fun a => a.groupId == id

/-- The actions of a rollout, in the order of their ids. -/
def rolloutActionsOf (s : Store) (id : RolloutId) : List Action :=
  (Table.rows s.actions).filter fun a => a.rolloutId == id

/-- The number of a group's actions with a status. -/
def tally (s : Store) (id : GroupId) (status : ActionStatus) : Nat :=
  Table.count (fun a => a.groupId == id && a.status == status) s.actions

/-! ## Writes -/

/-- The store with a rollout under its id. -/
def withRollout (s : Store) (r : Rollout) : Store :=
  { s with rollouts := Table.put s.rollouts r.id r }

/-- The store with a group under its id. -/
def withGroup (s : Store) (g : RolloutGroup) : Store :=
  { s with groups := Table.put s.groups g.id g }

/-- The store with an action under its id. -/
def withAction (s : Store) (a : Action) : Store :=
  { s with actions := Table.put s.actions a.id a }

/-- The store with groups under their ids. -/
def withGroups (s : Store) (groups : List RolloutGroup) : Store := groups.foldl withGroup s

/-- The store with actions under their ids. -/
def withActions (s : Store) (actions : List Action) : Store := actions.foldl withAction s

/-- The store without a group. -/
def withoutGroup (s : Store) (id : GroupId) : Store := { s with groups := s.groups.erase id }

/-- The store without an action. -/
def withoutAction (s : Store) (id : ActionId) : Store := { s with actions := s.actions.erase id }

variable (s : Store)

/-! ### Rollouts behind writes -/

@[simp] lemma rollout?_withRollout (r : Rollout) (id : RolloutId) :
    (s.withRollout r).rollout? id = if id = r.id then some r else s.rollout? id :=
  Table.intact?_put s.rollouts r.id id r

@[simp] lemma rollout?_withGroup (g : RolloutGroup) (id : RolloutId) :
    (s.withGroup g).rollout? id = s.rollout? id := rfl

@[simp] lemma rollout?_withAction (a : Action) (id : RolloutId) :
    (s.withAction a).rollout? id = s.rollout? id := rfl

@[simp] lemma rollout?_withoutGroup (g : GroupId) (id : RolloutId) :
    (s.withoutGroup g).rollout? id = s.rollout? id := rfl

@[simp] lemma rollout?_withoutAction (a : ActionId) (id : RolloutId) :
    (s.withoutAction a).rollout? id = s.rollout? id := rfl

@[simp] lemma rollouts_withGroups (groups : List RolloutGroup) :
    (s.withGroups groups).rollouts = s.rollouts := by
  induction groups generalizing s with
  | nil => rfl
  | cons g groups ih => exact ih (s.withGroup g)

@[simp] lemma rollouts_withActions (actions : List Action) :
    (s.withActions actions).rollouts = s.rollouts := by
  induction actions generalizing s with
  | nil => rfl
  | cons a actions ih => exact ih (s.withAction a)

@[simp] lemma rollout?_withGroups (groups : List RolloutGroup) (id : RolloutId) :
    (s.withGroups groups).rollout? id = s.rollout? id := by
  rw [rollout?, rollouts_withGroups, rollout?]

@[simp] lemma rollout?_withActions (actions : List Action) (id : RolloutId) :
    (s.withActions actions).rollout? id = s.rollout? id := by
  rw [rollout?, rollouts_withActions, rollout?]

/-! ### Groups behind writes -/

@[simp] lemma group?_withGroup (g : RolloutGroup) (id : GroupId) :
    (s.withGroup g).group? id = if id = g.id then some g else s.group? id :=
  Table.intact?_put s.groups g.id id g

@[simp] lemma group?_withRollout (r : Rollout) (id : GroupId) :
    (s.withRollout r).group? id = s.group? id := rfl

@[simp] lemma group?_withAction (a : Action) (id : GroupId) :
    (s.withAction a).group? id = s.group? id := rfl

@[simp] lemma group?_withoutGroup (g id : GroupId) :
    (s.withoutGroup g).group? id = if id = g then none else s.group? id :=
  Table.intact?_erase s.groups g id

lemma group?_withoutGroup_eq_some {s : Store} {key id : GroupId} {g : RolloutGroup} :
    (s.withoutGroup key).group? id = some g ↔ id ≠ key ∧ s.group? id = some g := by
  rw [group?_withoutGroup, Option.ite_none_left_eq_some]

@[simp] lemma group?_withoutAction (a : ActionId) (id : GroupId) :
    (s.withoutAction a).group? id = s.group? id := rfl

@[simp] lemma groups_withActions (actions : List Action) :
    (s.withActions actions).groups = s.groups := by
  induction actions generalizing s with
  | nil => rfl
  | cons a actions ih => exact ih (s.withAction a)

@[simp] lemma group?_withActions (actions : List Action) (id : GroupId) :
    (s.withActions actions).group? id = s.group? id := by
  rw [group?, groups_withActions, group?]

@[simp] lemma groupsOf_withRollout (r : Rollout) (id : RolloutId) :
    (s.withRollout r).groupsOf id = s.groupsOf id := rfl

lemma group?_withGroups_of_notMem {groups : List RolloutGroup} {id : GroupId}
    (h : ∀ g ∈ groups, g.id ≠ id) : (s.withGroups groups).group? id = s.group? id := by
  induction groups generalizing s with
  | nil => rfl
  | cons g groups ih =>
    have htail := ih (s.withGroup g) fun x hx => h x (List.mem_cons_of_mem _ hx)
    rw [withGroups, List.foldl_cons, ← withGroups, htail, group?_withGroup,
      if_neg (Ne.symm (h g List.mem_cons_self))]

lemma group?_withGroups_of_mem {groups : List RolloutGroup} {g : RolloutGroup}
    (hn : (groups.map (·.id)).Nodup) (hg : g ∈ groups) :
    (s.withGroups groups).group? g.id = some g := by
  induction groups generalizing s with
  | nil => simp at hg
  | cons x groups ih =>
    obtain ⟨hne, htail⟩ := nodup_keys_cons hn
    rcases List.mem_cons.1 hg with rfl | hg
    · rw [withGroups, List.foldl_cons, ← withGroups, group?_withGroups_of_notMem _ hne,
        group?_withGroup, if_pos rfl]
    · exact ih (s.withGroup x) htail hg

/-- Which group stands under an id once groups are written. -/
lemma group?_withGroups_cases {s : Store} {groups : List RolloutGroup} {id : GroupId}
    {g : RolloutGroup} (hg : (s.withGroups groups).group? id = some g) :
    (g ∈ groups ∧ g.id = id) ∨ s.group? id = some g := by
  induction groups generalizing s with
  | nil => exact .inr hg
  | cons x groups ih =>
    rcases ih (s := s.withGroup x) hg with ⟨hmem, hid⟩ | hold
    · exact .inl ⟨List.mem_cons_of_mem _ hmem, hid⟩
    · rw [group?_withGroup] at hold
      split at hold
      · rename_i hid
        obtain rfl := Option.some.inj hold
        exact .inl ⟨List.mem_cons_self, hid.symm⟩
      · exact .inr hold

/-! ### Actions behind writes -/

@[simp] lemma action?_withAction (a : Action) (id : ActionId) :
    (s.withAction a).action? id = if id = a.id then some a else s.action? id :=
  Table.intact?_put s.actions a.id id a

@[simp] lemma action?_withRollout (r : Rollout) (id : ActionId) :
    (s.withRollout r).action? id = s.action? id := rfl

@[simp] lemma action?_withGroup (g : RolloutGroup) (id : ActionId) :
    (s.withGroup g).action? id = s.action? id := rfl

@[simp] lemma action?_withoutGroup (g : GroupId) (id : ActionId) :
    (s.withoutGroup g).action? id = s.action? id := rfl

@[simp] lemma action?_withoutAction (a id : ActionId) :
    (s.withoutAction a).action? id = if id = a then none else s.action? id :=
  Table.intact?_erase s.actions a id

lemma action?_withoutAction_eq_some {s : Store} {key id : ActionId} {a : Action} :
    (s.withoutAction key).action? id = some a ↔ id ≠ key ∧ s.action? id = some a := by
  rw [action?_withoutAction, Option.ite_none_left_eq_some]

@[simp] lemma actions_withGroups (groups : List RolloutGroup) :
    (s.withGroups groups).actions = s.actions := by
  induction groups generalizing s with
  | nil => rfl
  | cons g groups ih => exact ih (s.withGroup g)

@[simp] lemma action?_withGroups (groups : List RolloutGroup) (id : ActionId) :
    (s.withGroups groups).action? id = s.action? id := by
  rw [action?, actions_withGroups, action?]

lemma action?_withActions_of_notMem {actions : List Action} {id : ActionId}
    (h : ∀ a ∈ actions, a.id ≠ id) : (s.withActions actions).action? id = s.action? id := by
  induction actions generalizing s with
  | nil => rfl
  | cons a actions ih =>
    have htail := ih (s.withAction a) fun x hx => h x (List.mem_cons_of_mem _ hx)
    rw [withActions, List.foldl_cons, ← withActions, htail, action?_withAction,
      if_neg (Ne.symm (h a List.mem_cons_self))]

lemma action?_withActions_of_mem {actions : List Action} {a : Action}
    (hn : (actions.map (·.id)).Nodup) (ha : a ∈ actions) :
    (s.withActions actions).action? a.id = some a := by
  induction actions generalizing s with
  | nil => simp at ha
  | cons x actions ih =>
    obtain ⟨hne, htail⟩ := nodup_keys_cons hn
    rcases List.mem_cons.1 ha with rfl | ha
    · rw [withActions, List.foldl_cons, ← withActions, action?_withActions_of_notMem _ hne,
        action?_withAction, if_pos rfl]
    · exact ih (s.withAction x) htail ha

/-! ### Counts behind writes -/

@[simp] lemma tally_withRollout (r : Rollout) (id : GroupId) (status : ActionStatus) :
    (s.withRollout r).tally id status = s.tally id status := rfl

@[simp] lemma tally_withGroup (g : RolloutGroup) (id : GroupId) (status : ActionStatus) :
    (s.withGroup g).tally id status = s.tally id status := rfl

@[simp] lemma tally_withGroups (groups : List RolloutGroup) (id : GroupId)
    (status : ActionStatus) : (s.withGroups groups).tally id status = s.tally id status := by
  rw [tally, actions_withGroups, tally]

/-- What an action adds to the number of a group's actions with a status. -/
def share (a : Action) (id : GroupId) (status : ActionStatus) : Nat :=
  if a.groupId = id ∧ a.status = status then 1 else 0

lemma tally_withAction_of_none {a : Action} (h : s.action? a.id = none) (id : GroupId)
    (status : ActionStatus) :
    (s.withAction a).tally id status = s.tally id status + share a id status := by
  have hcount := Table.count_put (fun x : Action => x.groupId == id && x.status == status)
    s.actions a.id a
  rw [action?] at h
  rw [h] at hcount
  simpa [tally, withAction, share, List.countP_cons] using hcount

lemma tally_withAction_of_some {a b : Action} (h : s.action? a.id = some b) (id : GroupId)
    (status : ActionStatus) :
    (s.withAction a).tally id status + share b id status =
      s.tally id status + share a id status := by
  have hcount := Table.count_put (fun x : Action => x.groupId == id && x.status == status)
    s.actions a.id a
  rw [action?] at h
  rw [h] at hcount
  simpa [tally, withAction, share, List.countP_cons] using hcount

lemma tally_withoutAction {a : Action} {key : ActionId} (h : s.action? key = some a)
    (id : GroupId) (status : ActionStatus) :
    (s.withoutAction key).tally id status + share a id status = s.tally id status := by
  have hcount := Table.count_erase (fun x : Action => x.groupId == id && x.status == status)
    s.actions key
  rw [action?] at h
  rw [h] at hcount
  simpa [tally, withoutAction, share, List.countP_cons] using hcount

/-- A stored action is counted. -/
lemma share_le_tally {a : Action} {key : ActionId} (h : s.action? key = some a) (id : GroupId)
    (status : ActionStatus) : share a id status ≤ s.tally id status := by
  have hcount := s.tally_withoutAction h id status
  omega

lemma tally_eq_zero_iff {id : GroupId} :
    (∀ status, s.tally id status = 0) ↔ ∀ key a, s.action? key = some a → a.groupId ≠ id := by
  constructor
  · intro h key a ha hid
    have hle := s.share_le_tally ha id a.status
    rw [h, share, if_pos ⟨hid, rfl⟩] at hle
    omega
  · intro h status
    rw [tally, Table.count, List.countP_eq_zero]
    intro a ha hmem
    obtain ⟨key, hkey⟩ := Table.mem_rows.1 ha
    simp only [Bool.and_eq_true, beq_iff_eq] at hmem
    exact h key a hkey hmem.1

end StagedRollout.Store
