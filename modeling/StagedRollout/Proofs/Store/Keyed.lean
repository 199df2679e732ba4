/-
# Stores whose rows belong together

Every row of a keyed store can be decoded and stands under its own id, a group belongs to a
rollout that exists, and an action to a group that exists and to one of its members.  In such a
store a listing by prefix is exactly what it is meant to be: the groups of one rollout in the
order of their indices, or the actions of one group or of one rollout.
-/
import StagedRollout.Proofs.Identifier
import StagedRollout.Proofs.Store.View

namespace StagedRollout

/-- A group whose id is made of its rollout and its index. -/
structure RolloutGroup.Placed (g : RolloutGroup) : Prop where
  id_eq : g.id = RolloutGroup.idOf g.rolloutId g.index
  index_lt : g.index < groupIndexLimit

namespace Store

/-- Rows can be decoded, stand under their own ids and refer to rows that exist. -/
structure Keyed (s : Store) : Prop where
  rollouts_intact : Table.Undamaged s.rollouts
  groups_intact : Table.Undamaged s.groups
  actions_intact : Table.Undamaged s.actions
  rollout_key : ∀ {id r}, s.rollout? id = some r → r.id = id ∧ NewRollout.isName id = true
  group_key : ∀ {id g}, s.group? id = some g → g.id = id ∧ g.Placed
  group_rollout : ∀ {id g}, s.group? id = some g → ∃ r, s.rollout? g.rolloutId = some r
  action_key : ∀ {id a}, s.action? id = some a →
    a.id = id ∧ a.id = Action.idOf a.groupId a.targetId
  action_group : ∀ {id a}, s.action? id = some a →
    ∃ g, s.group? a.groupId = some g ∧ g.rolloutId = a.rolloutId ∧ a.targetId ∈ g.targets

namespace Keyed

variable {s : Store} (h : Keyed s)
include h

/-! ## What is stored -/

lemma isGroupId {id : GroupId} {g : RolloutGroup} (hg : s.group? id = some g) : IsGroupId id := by
  obtain ⟨r, hr⟩ := h.group_rollout hg
  obtain ⟨rfl, hplaced⟩ := h.group_key hg
  exact ⟨_, _, (h.rollout_key hr).2, hplaced.index_lt, hplaced.id_eq⟩

lemma mem_groupsOf {id : RolloutId} {g : RolloutGroup} :
    g ∈ s.groupsOf id ↔ s.group? g.id = some g ∧ g.rolloutId = id := by
  rw [groupsOf, Table.mem_filter_rows fun hg => (h.group_key hg).1, beq_iff_eq, group?]

lemma mem_actionsOf {id : GroupId} {a : Action} :
    a ∈ s.actionsOf id ↔ s.action? a.id = some a ∧ a.groupId = id := by
  rw [actionsOf, Table.mem_filter_rows fun ha => (h.action_key ha).1, beq_iff_eq, action?]

lemma mem_rolloutActionsOf {id : RolloutId} {a : Action} :
    a ∈ s.rolloutActionsOf id ↔ s.action? a.id = some a ∧ a.rolloutId = id := by
  rw [rolloutActionsOf, Table.mem_filter_rows fun ha => (h.action_key ha).1, beq_iff_eq, action?]

lemma groupsOf_ascending (id : RolloutId) : (s.groupsOf id).Pairwise fun a b => a.id < b.id :=
  (Table.rows_ascending fun hg => (h.group_key hg).1).filter _

lemma nodup_groupsOf (id : RolloutId) : ((s.groupsOf id).map (·.id)).Nodup :=
  List.pairwise_map.2 ((h.groupsOf_ascending id).imp String.ne_of_lt)

/-- The groups of a rollout are in the order of their indices. -/
lemma groupsOf_index_lt (id : RolloutId) :
    (s.groupsOf id).Pairwise fun a b => a.index < b.index := by
  refine (h.groupsOf_ascending id).imp_of_mem fun {a b} ha hb hlt => ?_
  obtain ⟨hga, hrollout⟩ := h.mem_groupsOf.1 ha
  obtain ⟨hgb, rfl⟩ := h.mem_groupsOf.1 hb
  have hpa := (h.group_key hga).2
  have hpb := (h.group_key hgb).2
  rw [hpa.id_eq, hpb.id_eq, hrollout] at hlt
  rcases Nat.lt_trichotomy a.index b.index with hi | hi | hi
  · exact hi
  · exact absurd hlt (by rw [hi]; exact String.lt_irrefl _)
  · exact absurd (groupId_lt hpa.index_lt hi) (String.lt_asymm hlt)

lemma actionsOf_ascending (id : GroupId) : (s.actionsOf id).Pairwise fun a b => a.id < b.id :=
  (Table.rows_ascending fun ha => (h.action_key ha).1).filter _

lemma rolloutActionsOf_ascending (id : RolloutId) :
    (s.rolloutActionsOf id).Pairwise fun a b => a.id < b.id :=
  (Table.rows_ascending fun ha => (h.action_key ha).1).filter _

/-- A list in the order of ids that holds the groups of a rollout is the list of them. -/
lemma groupsOf_eq {id : RolloutId} {groups : List RolloutGroup}
    (hsorted : groups.Pairwise fun a b => a.id < b.id)
    (hmem : ∀ g, g ∈ groups ↔ s.group? g.id = some g ∧ g.rolloutId = id) :
    s.groupsOf id = groups := by
  have hgo := h.groupsOf_ascending id
  have hne : ∀ {a b : RolloutGroup}, a.id < b.id → a ≠ b := fun hlt heq =>
    String.ne_of_lt hlt (congrArg _ heq)
  refine List.Perm.eq_of_pairwise (fun a b _ _ hab hba => absurd hba (String.lt_asymm hab)) hgo
    hsorted ((List.perm_ext_iff_of_nodup (hgo.imp hne) (hsorted.imp hne)).2 fun g => ?_)
  rw [h.mem_groupsOf, hmem]

/-! ## What is read -/

lemma read_rollout (id : RolloutId) : Table.read s.rollouts id = .ok (s.rollout? id) :=
  Table.read_of_undamaged h.rollouts_intact id

lemma read_group (id : GroupId) : Table.read s.groups id = .ok (s.group? id) :=
  Table.read_of_undamaged h.groups_intact id

lemma read_action (id : ActionId) : Table.read s.actions id = .ok (s.action? id) :=
  Table.read_of_undamaged h.actions_intact id

/-! ## What is listed -/

lemma listRollouts_eq : s.listRollouts = .ok (Table.rows s.rollouts) := by
  rw [listRollouts, Table.list_eq_filter h.rollouts_intact (p := fun _ => true) fun _ => rfl,
    List.filter_true]

/-- The keys that begin with a rollout's name and a colon are those of its groups. -/
lemma startsWith_group_of_isName {id : RolloutId} {key : GroupId} {g : RolloutGroup}
    (hname : NewRollout.isName id = true) (hg : s.group? key = some g) :
    startsWith (id ++ ":") key = true ↔ g.rolloutId = id := by
  obtain ⟨rfl, hplaced⟩ := h.group_key hg
  obtain ⟨r, hr⟩ := h.group_rollout hg
  rw [hplaced.id_eq, startsWith_groupId _ hname (h.rollout_key hr).2, eq_comm]

lemma startsWith_group {id : RolloutId} {key : GroupId} {r : Rollout} {g : RolloutGroup}
    (hr : s.rollout? id = some r) (hg : s.group? key = some g) :
    startsWith (id ++ ":") key = true ↔ g.rolloutId = id :=
  h.startsWith_group_of_isName (h.rollout_key hr).2 hg

lemma listGroups_of_isName {id : RolloutId} (hname : NewRollout.isName id = true) :
    s.listGroups id = .ok (s.groupsOf id) := by
  refine Table.list_eq_filter h.groups_intact fun {key g} hg => ?_
  rw [Bool.eq_iff_iff, h.startsWith_group_of_isName hname hg, beq_iff_eq]

lemma listGroups_eq {id : RolloutId} {r : Rollout} (hr : s.rollout? id = some r) :
    s.listGroups id = .ok (s.groupsOf id) :=
  h.listGroups_of_isName (h.rollout_key hr).2

lemma listActions_group_eq {id : GroupId} (hid : IsGroupId id) :
    s.listActions id = .ok (s.actionsOf id) := by
  refine Table.list_eq_filter h.actions_intact fun {key a} ha => ?_
  obtain ⟨rfl, haid⟩ := h.action_key ha
  obtain ⟨g, hg, -⟩ := h.action_group ha
  rw [Bool.eq_iff_iff, haid, startsWith_actionId hid (h.isGroupId hg), beq_iff_eq, eq_comm]

/-- The keys that begin with a rollout's name and a colon are those of its actions. -/
lemma startsWith_action_of_isName {id : RolloutId} {key : ActionId} {a : Action}
    (hname : NewRollout.isName id = true) (ha : s.action? key = some a) :
    startsWith (id ++ ":") key = true ↔ a.rolloutId = id := by
  obtain ⟨rfl, hid⟩ := h.action_key ha
  obtain ⟨g, hg, hrollout, -⟩ := h.action_group ha
  obtain ⟨r, hr⟩ := h.group_rollout hg
  obtain ⟨hgid, hplaced⟩ := h.group_key hg
  rw [hid, ← hgid, hplaced.id_eq, startsWith_rollout_actionId _ hname (h.rollout_key hr).2,
    hrollout, eq_comm]

lemma startsWith_action {id : RolloutId} {key : ActionId} {r : Rollout} {a : Action}
    (hr : s.rollout? id = some r) (ha : s.action? key = some a) :
    startsWith (id ++ ":") key = true ↔ a.rolloutId = id :=
  h.startsWith_action_of_isName (h.rollout_key hr).2 ha

lemma listActions_of_isName {id : RolloutId} (hname : NewRollout.isName id = true) :
    s.listActions id = .ok (s.rolloutActionsOf id) := by
  refine Table.list_eq_filter h.actions_intact fun {key a} ha => ?_
  rw [Bool.eq_iff_iff, h.startsWith_action_of_isName hname ha, beq_iff_eq]

lemma listActions_rollout_eq {id : RolloutId} {r : Rollout} (hr : s.rollout? id = some r) :
    s.listActions id = .ok (s.rolloutActionsOf id) :=
  h.listActions_of_isName (h.rollout_key hr).2

/-! ## What keys say -/

/-- A group's key says which rollout it belongs to, in every store. -/
lemma group_rollout_eq {s' : Store} (h' : Keyed s') {key : GroupId} {g g' : RolloutGroup}
    (hg : s.group? key = some g) (hg' : s'.group? key = some g') : g'.rolloutId = g.rolloutId := by
  obtain ⟨r, hr⟩ := h.group_rollout hg
  obtain ⟨r', hr'⟩ := h'.group_rollout hg'
  obtain ⟨rfl, hplaced⟩ := h.group_key hg
  obtain ⟨hid, hplaced'⟩ := h'.group_key hg'
  rw [hplaced.id_eq, hplaced'.id_eq] at hid
  exact (groupId_injective (h'.rollout_key hr').2 (h.rollout_key hr).2 hplaced'.index_lt
    hplaced.index_lt hid).1

/-- An action's key says which rollout it belongs to, in every store. -/
lemma action_rollout_eq {s' : Store} (h' : Keyed s') {key : ActionId} {a a' : Action}
    (ha : s.action? key = some a) (ha' : s'.action? key = some a') :
    a'.rolloutId = a.rolloutId := by
  obtain ⟨g, hg, hof, -⟩ := h.action_group ha
  obtain ⟨g', hg', hof', -⟩ := h'.action_group ha'
  obtain ⟨rfl, hid⟩ := h.action_key ha
  obtain ⟨hkey, hid'⟩ := h'.action_key ha'
  rw [hid, hid'] at hkey
  have hgroup := (actionId_injective (h'.isGroupId hg') (h.isGroupId hg) hkey).1
  rw [← hof, ← hof', h.group_rollout_eq h' hg (hgroup ▸ hg')]

/-- The action of a member is an action of the member's group. -/
lemma action_member {key : GroupId} {t : TargetId} {a : Action} (hkey : IsGroupId key)
    (ha : s.action? (Action.idOf key t) = some a) : a.groupId = key ∧ a.targetId = t := by
  obtain ⟨hid, haid⟩ := h.action_key ha
  obtain ⟨g, hg, -⟩ := h.action_group ha
  exact actionId_injective (h.isGroupId hg) hkey (haid.symm.trans hid)

/-! ## What writes keep -/

lemma withRollout {r : Rollout} (hname : NewRollout.isName r.id = true) :
    Keyed (s.withRollout r) where
  rollouts_intact := h.rollouts_intact.put _ _
  groups_intact := h.groups_intact
  actions_intact := h.actions_intact
  rollout_key := by
    intro id r' hr'
    rw [rollout?_withRollout] at hr'
    split at hr'
    · rename_i hid
      obtain rfl := Option.some.inj hr'
      exact ⟨hid.symm, hid ▸ hname⟩
    · exact h.rollout_key hr'
  group_key := h.group_key
  group_rollout := by
    intro id g hg
    obtain ⟨r', hr'⟩ := h.group_rollout hg
    rw [rollout?_withRollout]
    split
    · exact ⟨r, rfl⟩
    · exact ⟨r', hr'⟩
  action_key := h.action_key
  action_group := h.action_group

/-- A group may be written that keeps its rollout and its members, or that is new. -/
lemma withGroup {g : RolloutGroup} {r : Rollout} (hplaced : g.Placed)
    (hr : s.rollout? g.rolloutId = some r)
    (hold : ∀ {old}, s.group? g.id = some old →
      old.rolloutId = g.rolloutId ∧ ∀ t ∈ old.targets, t ∈ g.targets) :
    Keyed (s.withGroup g) where
  rollouts_intact := h.rollouts_intact
  groups_intact := h.groups_intact.put _ _
  actions_intact := h.actions_intact
  rollout_key := h.rollout_key
  group_key := by
    intro id g' hg'
    rw [group?_withGroup] at hg'
    split at hg'
    · rename_i hid
      obtain rfl := Option.some.inj hg'
      exact ⟨hid.symm, hplaced⟩
    · exact h.group_key hg'
  group_rollout := by
    intro id g' hg'
    rw [group?_withGroup] at hg'
    split at hg'
    · obtain rfl := Option.some.inj hg'
      exact ⟨r, hr⟩
    · exact h.group_rollout hg'
  action_key := h.action_key
  action_group := by
    intro id a ha
    obtain ⟨old, hg', hrollout, hmem⟩ := h.action_group ha
    rw [group?_withGroup]
    split
    · rename_i hid
      obtain ⟨hro, htargets⟩ := hold (hid ▸ hg')
      exact ⟨g, rfl, hro ▸ hrollout, htargets _ hmem⟩
    · exact ⟨old, hg', hrollout, hmem⟩

lemma withAction {a : Action} {g : RolloutGroup} (hid : a.id = Action.idOf a.groupId a.targetId)
    (hg : s.group? a.groupId = some g) (hrollout : g.rolloutId = a.rolloutId)
    (hmem : a.targetId ∈ g.targets) : Keyed (s.withAction a) where
  rollouts_intact := h.rollouts_intact
  groups_intact := h.groups_intact
  actions_intact := h.actions_intact.put _ _
  rollout_key := h.rollout_key
  group_key := h.group_key
  group_rollout := h.group_rollout
  action_key := by
    intro id a' ha'
    rw [action?_withAction] at ha'
    split at ha'
    · rename_i heq
      obtain rfl := Option.some.inj ha'
      exact ⟨heq.symm, hid⟩
    · exact h.action_key ha'
  action_group := by
    intro id a' ha'
    rw [action?_withAction] at ha'
    split at ha'
    · obtain rfl := Option.some.inj ha'
      exact ⟨g, hg, hrollout, hmem⟩
    · exact h.action_group ha'

lemma withoutAction (id : ActionId) : Keyed (s.withoutAction id) where
  rollouts_intact := h.rollouts_intact
  groups_intact := h.groups_intact
  actions_intact := h.actions_intact.erase _
  rollout_key := h.rollout_key
  group_key := h.group_key
  group_rollout := h.group_rollout
  action_key ha := h.action_key (action?_withoutAction_eq_some.1 ha).2
  action_group ha := h.action_group (action?_withoutAction_eq_some.1 ha).2

/-- A group without actions may go. -/
lemma withoutGroup {id : GroupId} (hnone : ∀ key a, s.action? key = some a → a.groupId ≠ id) :
    Keyed (s.withoutGroup id) where
  rollouts_intact := h.rollouts_intact
  groups_intact := h.groups_intact.erase _
  actions_intact := h.actions_intact
  rollout_key := h.rollout_key
  group_key hg := h.group_key (group?_withoutGroup_eq_some.1 hg).2
  group_rollout hg := h.group_rollout (group?_withoutGroup_eq_some.1 hg).2
  action_key := h.action_key
  action_group := by
    intro id' a ha
    obtain ⟨g, hg, hrest⟩ := h.action_group ha
    exact ⟨g, by rw [group?_withoutGroup, if_neg (hnone _ _ ha)]; exact hg, hrest⟩

end Keyed

end Store

end StagedRollout
