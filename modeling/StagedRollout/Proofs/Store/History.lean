/-
# The history of actions

The actions that a write creates are the rows that were not there before it, in the order of groups
and of their members (`Store.created`).  Only issuing creates any (`Move.created_eq_nil`).

The history of a run is the list of all actions that its writes created, also of those that cleanup
has removed since.  A sound store is in keeping with its history (`Store.Recorded`): no device of a
rollout occurs twice in it, and an action of a rollout that is not deleted is still stored.
-/
import StagedRollout.Proofs.Store.Moves

namespace StagedRollout

/-- Two actions that differ in nothing but their status and the time of it. -/
def Action.SameTask (a b : Action) : Prop :=
  b = { a with status := b.status, lastStatusAt := b.lastStatusAt }

namespace Action.SameTask

variable {a b c : Action}

lemma refl (a : Action) : SameTask a a := rfl

lemma trans (h : SameTask a b) (h' : SameTask b c) : SameTask a c := by
  unfold SameTask at *
  rw [h', h]

lemma id (h : SameTask a b) : b.id = a.id := by rw [h]

lemma rolloutId (h : SameTask a b) : b.rolloutId = a.rolloutId := by rw [h]

lemma groupId (h : SameTask a b) : b.groupId = a.groupId := by rw [h]

lemma targetId (h : SameTask a b) : b.targetId = a.targetId := by rw [h]

end Action.SameTask

namespace Store

open RolloutGroup Progression Transaction

variable {allowed : Intent → Prop} {s s' : Store}

/-! ## Created actions -/

/-- The actions of a group's members that one store has and another one has not. -/
def createdIn (s s' : Store) (g : RolloutGroup) : List Action :=
  g.targets.filterMap fun t =>
    if (s.action? (Action.idOf g.id t)).isNone then s'.action? (Action.idOf g.id t) else none

/-- The actions that a write creates, in the order of groups and of their members. -/
def created (s s' : Store) : List Action := (Table.rows s'.groups).flatMap (createdIn s s')

/-- Every action of the second store is in the first one. -/
lemma created_eq_nil (h : ∀ id, s.action? id = none → s'.action? id = none) :
    created s s' = [] := by
  refine List.flatMap_eq_nil_iff.2 fun g _ => List.filterMap_eq_nil_iff.2 fun t _ => ?_
  split
  · rename_i hnone
    exact h _ (by simpa using hnone)
  · rfl

/-! ## What moves keep -/

/-- No rollout goes away, no action appears, and an action goes away only with its rollout. -/
structure Keeps (s s' : Store) : Prop where
  rollouts : ∀ {id r}, s.rollout? id = some r →
    ∃ r', s'.rollout? id = some r' ∧ (r'.deleted = false → r.deleted = false)
  actions : ∀ {id b}, s'.action? id = some b → ∃ a, s.action? id = some a ∧ a.SameTask b
  kept : ∀ {id a}, s.action? id = some a →
    (∃ b, s'.action? id = some b ∧ a.SameTask b) ∨
      ∃ r, s'.rollout? a.rolloutId = some r ∧ r.deleted = true

lemma Keeps.refl (s : Store) : Keeps s s where
  rollouts hr := ⟨_, hr, id⟩
  actions ha := ⟨_, ha, .refl _⟩
  kept ha := .inl ⟨_, ha, .refl _⟩

lemma Keeps.created_eq_nil (h : Keeps s s') : created s s' = [] := by
  refine Store.created_eq_nil fun id hnone => ?_
  rcases hb : s'.action? id with _ | b
  · rfl
  · obtain ⟨a, ha, -⟩ := h.actions hb
    rw [hnone] at ha
    exact absurd ha (by simp)

/-- Actions that are the same in both stores are kept. -/
lemma Keeps.of_actions (h : ∀ id, s'.action? id = s.action? id)
    (hr : ∀ {id r}, s.rollout? id = some r →
      ∃ r', s'.rollout? id = some r' ∧ (r'.deleted = false → r.deleted = false)) : Keeps s s' where
  rollouts := hr
  actions ha := ⟨_, (h _).symm.trans ha, .refl _⟩
  kept ha := .inl ⟨_, (h _).trans ha, .refl _⟩

lemma Keeps.withProgress {r r' : Rollout} {groups : List RolloutGroup}
    (hr : s.rollout? r.id = some r) (hrow : r'.id = r.id)
    (hd : r'.deleted = false → r.deleted = false) : Keeps s (s.withProgress r' groups) := by
  refine .of_actions (fun id => by simp [Store.withProgress]) fun {id x} hx => ?_
  rw [Store.withProgress, rollout?_withGroups, rollout?_withRollout]
  split
  · rename_i hid
    rw [hid, hrow] at hx
    obtain rfl := Option.some.inj (hr.symm.trans hx)
    exact ⟨r', rfl, hd⟩
  · exact ⟨x, hx, fun hx => hx⟩

lemma Keeps.withRollout {r r' : Rollout} (hr : s.rollout? r.id = some r) (hrow : r'.id = r.id)
    (hd : r'.deleted = false → r.deleted = false) : Keeps s (s.withRollout r') := by
  have h : Keeps s (s.withProgress r' []) := .withProgress hr hrow hd
  exact h

lemma Keeps.withGroup (s : Store) (g : RolloutGroup) : Keeps s (s.withGroup g) :=
  .of_actions (fun _ => rfl) fun hr => ⟨_, hr, id⟩

lemma Keeps.withStatus {a : Action} (ha : s.action? a.id = some a) (status : ActionStatus)
    (now : Nat) : Keeps s (s.withStatus a status now) where
  rollouts hr := by
    rw [rollout?, rollouts_withStatus]
    exact ⟨_, hr, id⟩
  actions hb := by
    rw [action?_withStatus] at hb
    split at hb
    · rename_i hid
      obtain rfl := Option.some.inj hb
      exact ⟨a, hid ▸ ha, rfl⟩
    · exact ⟨_, hb, .refl _⟩
  kept hx := by
    rw [action?_withStatus]
    split
    · rename_i hid
      rw [hid, ha] at hx
      obtain rfl := Option.some.inj hx
      exact .inl ⟨_, rfl, rfl⟩
    · exact .inl ⟨_, hx, .refl _⟩

lemma Keeps.trans {s'' : Store} (h : Keeps s s') (h' : Keeps s' s'')
    (hlate : ∀ {id r}, s'.rollout? id = some r → r.deleted = true →
      ∃ r', s''.rollout? id = some r' ∧ r'.deleted = true) : Keeps s s'' where
  rollouts hr := by
    obtain ⟨r', hr', hd⟩ := h.rollouts hr
    obtain ⟨r'', hr'', hd'⟩ := h'.rollouts hr'
    exact ⟨r'', hr'', fun hx => hd (hd' hx)⟩
  actions hc := by
    obtain ⟨b, hb, hbc⟩ := h'.actions hc
    obtain ⟨a, ha, hab⟩ := h.actions hb
    exact ⟨a, ha, hab.trans hbc⟩
  kept ha := by
    rcases h.kept ha with ⟨b, hb, hab⟩ | ⟨r, hr, hd⟩
    -- what the first change leaves the second one may remove, but only with its rollout
    · rcases h'.kept hb with ⟨c, hc, hbc⟩ | ⟨r, hr, hd⟩
      · exact .inl ⟨c, hc, hab.trans hbc⟩
      · exact .inr ⟨r, hab.rolloutId ▸ hr, hd⟩
    · exact .inr (hlate hr hd)

lemma Keeps.cancelled {actions : List Action} (now : Nat) (hn : (actions.map (·.id)).Nodup)
    (hstored : ∀ a ∈ actions, s.action? a.id = some a) :
    Keeps s (s.cancelled actions now) ∧ (s.cancelled actions now).rollouts = s.rollouts := by
  induction actions generalizing s with
  | nil => exact ⟨.refl s, rfl⟩
  | cons a actions ih =>
    have ha := hstored a List.mem_cons_self
    obtain ⟨hkeeps, hrollouts⟩ := ih (nodup_keys_cons hn).2
      (stored_withStatus hn hstored .canceling now)
    refine ⟨(Keeps.withStatus ha .canceling now).trans hkeeps fun {id r} hr hd => ?_, ?_⟩
    · exact ⟨r, (congrArg (fun t => Table.intact? t id) hrollouts).trans hr, hd⟩
    · exact hrollouts.trans (rollouts_withStatus s a _ now)

lemma Keeps.dropped {a : Action} {r : Rollout} (ha : s.action? a.id = some a)
    (hr : s.rollout? a.rolloutId = some r) (hd : r.deleted = true) : Keeps s (s.dropped a) where
  rollouts hx := by
    rw [rollout?, rollouts_dropped]
    exact ⟨_, hx, id⟩
  actions hb := ⟨_, (action?_dropped_eq_some.1 hb).2, .refl _⟩
  kept hx := by
    rw [action?_dropped]
    split
    · rename_i hid
      rw [hid, ha] at hx
      obtain rfl := Option.some.inj hx
      rw [rollout?, rollouts_dropped]
      exact .inr ⟨r, hr, hd⟩
    · exact .inl ⟨_, hx, .refl _⟩

/-- **Moves keep the list of tasks.** -/
theorem Move.keeps (h : Sound s) (hm : Move allowed s s') : Keeps s s' := by
  have hsame : ∀ {c now} {r r' : Rollout}, r.apply? c now = some r' → r'.id = r.id ∧
      (r'.deleted = false → r.deleted = false) := fun happly =>
    ⟨Rollout.id_of_apply happly, fun hd =>
      (Rollout.AgreesWith.deleted_eq_false_before happly hd).2⟩
  cases hm with
  | beside hs =>
    refine .of_actions (fun id => by rw [action?, hs.actions, action?]) fun hr => ?_
    rw [rollout?, hs.rollouts]
    exact ⟨_, hr, id⟩
  | @create n quota targets plans approval now r _ _ _ hnew happly =>
    have hid : r.id = n.name := (hsame happly).1
    refine .of_actions (fun id => by simp [Store.withProgress]) fun {id x} hx => ?_
    have hne : id ≠ r.id := fun heq => by
      rw [heq, hid, hnew] at hx
      exact absurd hx (by simp)
    rw [Store.withProgress, rollout?_withGroups, rollout?_withRollout, if_neg hne]
    exact ⟨x, hx, fun hx => hx⟩
  | order _ hr hc happly =>
    exact .withRollout hr (hsame happly).1 (hsame happly).2
  | resume _ hr happly => exact .withProgress hr (hsame happly).1 (hsame happly).2
  | @stop r r' now _ hr happly =>
    have hrow := Keeps.withRollout hr (hsame happly).1 (hsame happly).2
    have hstored : ∀ a ∈ openActions s r.id, (s.withRollout r').action? a.id = some a :=
      stored_of_mem_openActions h.toKeyed
    obtain ⟨hkeeps, hrollouts⟩ :=
      Keeps.cancelled now (nodup_openActions h.toKeyed r.id) hstored
    refine hrow.trans hkeeps fun hr hd => ?_
    rw [rollout?, hrollouts]
    exact ⟨_, hr, hd⟩
  | trigger => exact .withGroup s _
  | settle => exact .withGroup s _
  | fail _ hr _ _ _ _ happly => exact .withProgress hr (hsame happly).1 (hsame happly).2
  | finish _ hr _ happly =>
    exact .withRollout hr (hsame happly).1 (hsame happly).2
  | giveUp _ hr happly =>
    exact .withRollout hr (hsame happly).1 (hsame happly).2
  | stamp hr => exact .withRollout hr rfl id
  | join _ hr => exact .withProgress hr rfl id
  | report _ ha => exact .withStatus ha _ _
  | dropAction _ ha hr hdeleting => exact .dropped ha hr (deleted_of_deleting h hr hdeleting)
  | dropGroup => exact .of_actions (fun _ => rfl) fun hr => ⟨_, hr, id⟩
  | @purge _ r r' now _ hr _ happly hs =>
    have hrow : ({ r' with groupIds := [] } : Rollout).id = r.id := (hsame happly).1
    have hkeeps : Keeps s (s.withRollout { r' with groupIds := [] }) :=
      .withRollout hr hrow (hsame happly).2
    refine .of_actions (fun id => by rw [action?, hs.actions]; rfl) fun hx => ?_
    rw [rollout?, hs.rollouts]
    exact hkeeps.rollouts hx

/-! ## The actions that an issue creates -/

/-- A part of a list without repetition, in the same order, is found again in it. -/
lemma filter_mem_of_sublist {l l' : List TargetId} (h : l.Sublist l') (hn : l'.Nodup) :
    (l'.filter fun t => decide (t ∈ l)) = l := by
  induction h with
  | slnil => rfl
  | @cons l l' a hsub ih =>
    obtain ⟨hnot, htail⟩ := List.nodup_cons.1 hn
    have ha : a ∉ l := fun hmem => hnot (hsub.subset hmem)
    rw [List.filter_cons, if_neg (by simpa using ha)]
    exact ih htail
  | @cons_cons l l' a hsub ih =>
    obtain ⟨hnot, htail⟩ := List.nodup_cons.1 hn
    rw [List.filter_cons, if_pos (by simp)]
    refine congrArg _ ((List.filter_congr fun t ht => ?_).trans (ih htail))
    have hne : t ≠ a := fun heq => hnot (heq ▸ ht)
    simp [hne]

section

variable {r : Rollout} {g : RolloutGroup} {targets : List TargetId} {now : Nat}

/-- The action under a key behind an issue. -/
lemma action?_issued (h : Keyed s) (hg : s.group? g.id = some g) (hn : targets.Nodup)
    {x : GroupId} (hx : IsGroupId x) {t : TargetId} (hnone : s.action? (Action.idOf x t) = none) :
    (s.issued g (targets.map (newAction r g now)) now).action? (Action.idOf x t) =
      if x = g.id ∧ t ∈ targets then some (newAction r g now t) else none := by
  have hgid := h.isGroupId hg
  have hactions := nodup_newActions r now hgid hn
  rw [Store.issued, action?_withGroup]
  split
  · rename_i hmem
    obtain ⟨rfl, ht⟩ := hmem
    have hnew : newAction r g now t ∈ s.missing (targets.map (newAction r g now)) :=
      mem_missing.2 ⟨List.mem_map_of_mem ht, hnone⟩
    exact action?_withActions_of_mem s (nodup_missing hactions) hnew
  · rename_i hnot
    rw [action?_withActions_of_notMem, hnone]
    intro a ha heq
    obtain ⟨t', ht', rfl⟩ := List.mem_map.1 (mem_missing.1 ha).1
    obtain ⟨rfl, rfl⟩ := actionId_injective hgid hx heq
    exact hnot ⟨rfl, ht'⟩

lemma createdIn_issued (h : Keyed s) (hg : s.group? g.id = some g) (hn : g.targets.Nodup)
    (hsub : targets.Sublist g.targets) :
    createdIn s (s.issued g (targets.map (newAction r g now)) now) g =
      s.missing (targets.map (newAction r g now)) := by
  have hmember : ∀ t ∈ g.targets,
      (if (s.action? (Action.idOf g.id t)).isNone then
        (s.issued g (targets.map (newAction r g now)) now).action? (Action.idOf g.id t)
      else none) =
      if t ∈ targets ∧ (s.action? (Action.idOf g.id t)).isNone = true then
        some (newAction r g now t) else none := by
    intro t _
    by_cases hnone : s.action? (Action.idOf g.id t) = none
    · rw [action?_issued h hg (hn.sublist hsub) (h.isGroupId hg) hnone]
      simp [hnone]
    · simp [hnone]
  have hfilter : ((g.targets.filter fun t => decide (t ∈ targets)).filter fun t =>
      (s.action? (Action.idOf g.id t)).isNone).map (newAction r g now) =
        s.missing (targets.map (newAction r g now)) := by
    rw [filter_mem_of_sublist hsub hn, missing, List.filter_map]
    rfl
  rw [createdIn, List.filterMap_congr hmember, ← hfilter, List.filter_filter,
    ← List.filterMap_eq_map, List.filterMap_filter]
  refine List.filterMap_congr fun t _ => ?_
  by_cases ht : t ∈ targets <;> by_cases hnone : (s.action? (Action.idOf g.id t)).isNone = true <;>
    simp [ht, hnone]

lemma createdIn_issued_of_ne (h : Keyed s) (hg : s.group? g.id = some g) (hn : targets.Nodup)
    {x : RolloutGroup} (hx : IsGroupId x.id) (hne : x.id ≠ g.id) :
    createdIn s (s.issued g (targets.map (newAction r g now)) now) x = [] := by
  refine List.filterMap_eq_nil_iff.2 fun t _ => ?_
  split
  · rename_i hnone
    rw [action?_issued h hg hn hx (by simpa using hnone), if_neg fun hboth => hne hboth.1]
  · rfl

/-- **An issue creates the actions that did not exist yet**, in the order of the members. -/
theorem created_issued (h : Sound s) (hr : s.rollout? r.id = some r) (hrun : r.state = .running)
    (hg : g ∈ s.groupsOf r.id) (hsub : targets.Sublist g.targets)
    (hsound : Sound (s.issued g (targets.map (newAction r g now)) now)) :
    created s (s.issued g (targets.map (newAction r g now)) now) =
      s.missing (targets.map (newAction r g now)) := by
  have hstored := (h.mem_groupsOf.1 hg).1
  have hn := h.nodup_targets hr ((h.agrees hr).deleted_eq_false_of_running hrun) hg
  have hroster := sameRoster_begunWith g (s.missing (targets.map (newAction r g now))) now
  generalize hg' : begunWith g (s.missing (targets.map (newAction r g now))) now = g' at hroster
  generalize hs' : s.issued g (targets.map (newAction r g now)) now = s' at hsound
  have hmem : g' ∈ Table.rows s'.groups := by
    refine Table.mem_rows.2 ⟨g'.id, ?_⟩
    rw [← hs', Store.issued, hg']
    simp [withGroup]
  have hown : createdIn s s' g' = s.missing (targets.map (newAction r g now)) := by
    rw [← createdIn_issued h.toKeyed hstored hn hsub, hs', createdIn, hroster.id, hroster.targets]
    rfl
  have hother : ∀ x ∈ Table.rows s'.groups, x.id ≠ g'.id → createdIn s s' x = [] := by
    intro x hx hne
    obtain ⟨key, hkey⟩ := Table.mem_rows.1 hx
    have hxid := hsound.isGroupId hkey
    rw [← (hsound.group_key hkey).1] at hxid
    rw [← hs']
    exact createdIn_issued_of_ne h.toKeyed hstored (hn.sublist hsub) hxid (hroster.id ▸ hne)
  -- ids are all different, so the group stands alone among the rows
  have hascending := Table.rows_ascending fun {key x} hx => (hsound.group_key hx).1
  obtain ⟨front, rest, hrows⟩ := List.append_of_mem hmem
  rw [hrows] at hascending hother
  obtain ⟨-, htail, hfront⟩ := List.pairwise_append.1 hascending
  have hbefore : front.flatMap (createdIn s s') = [] :=
    List.flatMap_eq_nil_iff.2 fun x hx => hother x (by simp [hx])
      (String.ne_of_lt (hfront x hx g' List.mem_cons_self))
  have hafter : rest.flatMap (createdIn s s') = [] :=
    List.flatMap_eq_nil_iff.2 fun x hx => hother x (by simp [hx])
      (String.ne_of_lt ((List.pairwise_cons.1 htail).1 x hx)).symm
  rw [created, hrows, List.flatMap_append, List.flatMap_cons, hbefore, hafter, hown,
    List.nil_append, List.append_nil]

end

/-! ## Histories -/

/-- A store and the list of all actions that were created on the way to it. -/
structure Recorded (s : Store) (history : List Action) : Prop where
  /-- No device of a rollout occurs twice. -/
  distinct : history.Pairwise fun a b => ¬ (a.rolloutId = b.rolloutId ∧ a.targetId = b.targetId)
  /-- The rollout of every action exists; unless it is deleted, the action does too. -/
  kept : ∀ a ∈ history, ∃ r, s.rollout? a.rolloutId = some r ∧
    (r.deleted = false → ∃ b, s.action? a.id = some b ∧ a.SameTask b)
  /-- Every stored action was created. -/
  stored : ∀ {id b}, s.action? id = some b → ∃ a ∈ history, a.SameTask b

lemma recorded_empty : Recorded .empty [] where
  distinct := .nil
  kept a ha := absurd ha List.not_mem_nil
  stored {id b} hb := by simp [Store.empty, action?, Table.intact?] at hb

variable {history : List Action}

lemma Recorded.keeps (h : Recorded s history) (hk : Keeps s s') : Recorded s' history where
  distinct := h.distinct
  kept a ha := by
    obtain ⟨r, hr, hstored⟩ := h.kept a ha
    obtain ⟨r', hr', hd⟩ := hk.rollouts hr
    refine ⟨r', hr', fun hd' => ?_⟩
    obtain ⟨b, hb, hab⟩ := hstored (hd hd')
    rcases hk.kept hb with ⟨c, hc, hbc⟩ | ⟨r'', hr'', hgone⟩
    · exact ⟨c, hc, hab.trans hbc⟩
    · rw [hab.rolloutId, hr'] at hr''
      obtain rfl := Option.some.inj hr''
      simp [hd'] at hgone
  stored hb := by
    obtain ⟨a, ha, hab⟩ := hk.actions hb
    obtain ⟨x, hx, hxa⟩ := h.stored ha
    exact ⟨x, hx, hxa.trans hab⟩

/-- A device belongs to one group of a rollout only. -/
lemma Sound.eq_of_mem_targets {r : Rollout} {g g' : RolloutGroup} {t : TargetId} (h : Sound s)
    (hr : s.rollout? r.id = some r) (hd : r.deleted = false) (hg : g ∈ s.groupsOf r.id)
    (hg' : g' ∈ s.groupsOf r.id) (ht : t ∈ g.targets) (ht' : t ∈ g'.targets) : g = g' := by
  have hdisjoint := (List.nodup_flatMap.1 ((h.agrees hr).roster hd).disjoint).2
  have hsymm : Std.Symm fun a b : RolloutGroup => List.Disjoint a.targets b.targets :=
    ⟨fun _ _ hab _ ha hb => hab hb ha⟩
  by_contra hne
  exact hdisjoint.forall hg hg' hne ht ht'

lemma action?_issued_of_some {id : ActionId} {b : Action} {g : RolloutGroup}
    {actions : List Action} {now : Nat} (hb : s.action? id = some b) :
    (s.issued g actions now).action? id = some b := by
  rw [Store.issued, action?_withGroup, action?_withActions_of_notMem]
  · exact hb
  · intro a ha heq
    have hnone := (mem_missing.1 ha).2
    rw [heq, hb] at hnone
    exact absurd hnone (by simp)

lemma action?_issued_cases {id : ActionId} {b : Action} {g : RolloutGroup}
    {actions : List Action} {now : Nat} (hn : (actions.map (·.id)).Nodup)
    (hb : (s.issued g actions now).action? id = some b) :
    s.action? id = some b ∨ b ∈ s.missing actions := by
  rw [Store.issued, action?_withGroup] at hb
  by_cases hx : ∃ a ∈ s.missing actions, a.id = id
  · obtain ⟨a, ha, rfl⟩ := hx
    rw [action?_withActions_of_mem s (nodup_missing hn) ha] at hb
    exact .inr (Option.some.inj hb ▸ ha)
  · rw [action?_withActions_of_notMem s fun a ha heq => hx ⟨a, ha, heq⟩] at hb
    exact .inl hb

/-- **No device of a rollout gets a second action**, whatever became of the first one. -/
theorem Recorded.issued {r : Rollout} {g : RolloutGroup} {targets : List TargetId} {now : Nat}
    (h : Recorded s history) (hs : Sound s) (hr : s.rollout? r.id = some r)
    (hrun : r.state = .running) (hg : g ∈ s.groupsOf r.id) (hsub : targets.Sublist g.targets) :
    Recorded (s.issued g (targets.map (newAction r g now)) now)
      (history ++ s.missing (targets.map (newAction r g now))) := by
  obtain ⟨hstored, -⟩ := hs.mem_groupsOf.1 hg
  have hd := (hs.agrees hr).deleted_eq_false_of_running hrun
  have htargets := (hs.nodup_targets hr hd hg).sublist hsub
  have hn := nodup_newActions r now (hs.isGroupId hstored) htargets
  have hrow : (s.issued g (targets.map (newAction r g now)) now).rollouts = s.rollouts :=
    rollouts_withActions s _
  refine ⟨List.pairwise_append.2 ⟨h.distinct, ?_, ?_⟩, ?_, ?_⟩
  · refine List.Pairwise.sublist (missing_sublist s _) (List.pairwise_map.2 ?_)
    exact htargets.imp fun hne hboth => hne hboth.2
  -- a created action was in the way of a new one for its device
  · rintro a ha b hb ⟨hrollout, htarget⟩
    obtain ⟨hmem, hnone⟩ := mem_missing.1 hb
    obtain ⟨t, ht, rfl⟩ := List.mem_map.1 hmem
    obtain ⟨r', hr', hkept⟩ := h.kept a ha
    obtain rfl : r' = r := Option.some.inj (hr'.symm.trans (hrollout ▸ hr))
    obtain ⟨c, hc, hac⟩ := hkept hd
    -- the earlier action is in the same group, for the device is in no other one
    obtain ⟨g', hg', hrid, hmember⟩ := hs.action_group hc
    have hgid := (hs.group_key hg').1
    have hg'of : g' ∈ s.groupsOf r'.id := by
      refine hs.mem_groupsOf.2 ⟨?_, hrid.trans (hac.rolloutId.trans hrollout)⟩
      rw [hgid]
      exact hg'
    rw [hac.targetId, htarget] at hmember
    obtain rfl := hs.eq_of_mem_targets hr hd hg hg'of (hsub.subset ht) hmember
    obtain ⟨hcid, hid⟩ := hs.action_key hc
    rw [← hgid, hac.targetId, htarget, hcid] at hid
    rw [hid] at hc
    exact absurd (hc.symm.trans hnone) (by simp)
  · intro a ha
    rw [rollout?, hrow]
    rcases List.mem_append.1 ha with ha | ha
    · obtain ⟨r', hr', hkept⟩ := h.kept a ha
      refine ⟨r', hr', fun hd' => ?_⟩
      obtain ⟨b, hb, hab⟩ := hkept hd'
      exact ⟨b, action?_issued_of_some hb, hab⟩
    · obtain ⟨t, ht, rfl⟩ := List.mem_map.1 (mem_missing.1 ha).1
      exact ⟨r, hr, fun _ => ⟨_, action?_withActions_of_mem s (nodup_missing hn) ha, .refl _⟩⟩
  · intro id b hb
    rcases action?_issued_cases hn hb with hb | hb
    · obtain ⟨a, ha, hab⟩ := h.stored hb
      exact ⟨a, List.mem_append_left _ ha, hab⟩
    · exact ⟨b, List.mem_append_right _ hb, .refl b⟩

/-- **Every step keeps a store in keeping with its history.** -/
theorem Recorded.step (h : Recorded s history) (hs : Sound s) (hstep : Step allowed s s') :
    Recorded s' (history ++ created s s') := by
  rcases hstep with hm | ⟨-, hi⟩
  · rw [(hm.keeps hs).created_eq_nil, List.append_nil]
    exact h.keeps (hm.keeps hs)
  · have hs' := hs.issue hi
    cases hi with
    | issue hr hrun hg hmay hsub =>
      rw [created_issued hs hr hrun hg hsub hs']
      exact h.issued hs hr hrun hg hsub

end Store

end StagedRollout
