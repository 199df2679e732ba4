/-
# What a live resolution comes to

A live resolution that succeeds has done one of three things (`Live.Refreshed`): nothing, because
it was not due; written the time, because no device may join; or brought all devices that are new
to the rollout into its last group (`Live.Joined`).  It is told from its own run, part by part: an
operation that ends with a value has had each of its parts end with one (`Operation.Ends`).

The members of a group change in no other way.  Of all that a step makes of a group, only a turn
with devices that join it touches its members (`Store.Step.members`), and only live resolutions may
take that turn.
-/
import StagedRollout.Proofs.Invariants
import StagedRollout.Proofs.Operator.Answers
import StagedRollout.Proofs.Store.Changes

namespace StagedRollout

open Store Transaction

/-! ## Operations that end with a value -/

/-- An operation ends with a value and leaves a world. -/
def Operation.Ends {ε α : Type} (env : Surroundings) (op : Operation ε α) (w : World) (a : α)
    (w' : World) : Prop :=
  (ExceptT.run op).run env w = (.ok a, w')

namespace Operation.Ends

variable {α β ε ε' : Type} {env : Surroundings} {w w' : World} {a b : α}

lemma of_bind {op : Operation ε α} {f : α → Operation ε β} {b : β}
    (h : Ends env (op >>= f) w b w') : ∃ a w₁, Ends env op w a w₁ ∧ Ends env (f a) w₁ b w' := by
  unfold Ends at h ⊢
  rw [ExceptT.run_bind, Program.run_bind] at h
  cases hop : ((ExceptT.run op).run env w).1 with
  | error e =>
    rw [hop] at h
    cases h
  | ok a =>
    rw [hop] at h
    exact ⟨a, _, Prod.ext hop rfl, h⟩

lemma of_pure (h : Ends env (pure a : Operation ε α) w b w') : b = a ∧ w' = w := by
  cases h
  exact ⟨rfl, rfl⟩

lemma of_mapError {op : Operation ε α} {f : ε → ε'}
    (h : Ends env (Operation.mapError f op) w a w') : Ends env op w a w' := by
  change (ExceptT.run op >>= fun r => .done (r.mapError f)).run env w = _ at h
  rw [Program.run_bind] at h
  obtain ⟨hvalue, hworld⟩ := Prod.mk.inj h
  exact Prod.ext (Except.mapError_eq_ok hvalue) hworld

lemma of_read {view : Store → Except StoreError α} (h : Ends env (Operation.read view) w a w') :
    view w.store = .ok a ∧ w' = w := by
  obtain ⟨hview, rfl⟩ := Prod.mk.inj h
  exact ⟨hview, rfl⟩

lemma of_commit {fence : Option Fence} {t : Transaction α}
    (h : Ends env (Operation.commit fence t) w a w') : t w.store = .ok (a, w'.store) := by
  obtain ⟨now, hcommit⟩ : ∃ now, w.store.commit fence now t = (.ok a, w'.store) := by
    obtain ⟨hvalue, hworld⟩ := Prod.ext_iff.1 h
    cases fence with
    | none => exact ⟨0, Prod.ext hvalue (congrArg World.store hworld)⟩
    | some f => exact ⟨_, Prod.ext hvalue (congrArg World.store hworld)⟩
  rcases w.store.commit_outcome fence now t with
    ⟨e, -, heq⟩ | ⟨-, ⟨e, -, heq⟩ | ⟨b, s', hrun, heq⟩⟩
  · cases heq.symm.trans hcommit
  · cases heq.symm.trans hcommit
  · obtain ⟨hvalue, rfl⟩ := Prod.mk.inj (heq.symm.trans hcommit)
    exact Except.ok.inj hvalue ▸ hrun

lemma of_lift {p : Program α} (h : Ends env (ExceptT.lift p : Operation ε α) w a w') :
    p.run env w = (a, w') := by
  change (p >>= fun b => .done (Except.ok b)).run env w = (Except.ok a, w') at h
  rw [Program.run_bind] at h
  obtain ⟨hvalue, hworld⟩ := Prod.mk.inj h
  exact Prod.ext (Except.ok.inj hvalue) hworld

end Operation.Ends

/-- A value that was put under a key is replaced by the next one. -/
lemma Table.put_put {α : Type} (t : Table α) (key : String) (a b : α) :
    Table.put (Table.put t key a) key b = Table.put t key b := by
  refine OrderedMap.ext_find? fun k => ?_
  unfold Table.put
  rw [OrderedMap.find?_insert, OrderedMap.find?_insert, OrderedMap.find?_insert]
  by_cases hk : k = key <;> simp [hk]

lemma Table.find?_eq_none {α : Type} {t : Table α} (h : Table.Undamaged t) {key : String}
    (hnone : Table.intact? t key = none) : t.find? key = none := by
  cases hrow : t.find? key with
  | none => rfl
  | some row =>
    obtain ⟨a, rfl⟩ := h key row hrow
    simp [Table.intact?, hrow] at hnone

lemma Store.find?_withActions_of_notMem {actions : List Action} {key : ActionId} (s : Store)
    (h : ∀ a ∈ actions, key ≠ a.id) :
    (s.withActions actions).actions.find? key = s.actions.find? key := by
  induction actions generalizing s with
  | nil => rfl
  | cons a actions ih =>
    rw [withActions, List.foldl_cons, ← withActions,
      ih _ fun x hx => h x (List.mem_cons_of_mem _ hx)]
    exact (OrderedMap.find?_insert _ _ _ _).trans (if_neg (h a List.mem_cons_self))

/-- New actions are counted as created. -/
lemma Store.countedUp_created {actions : List Action} (counts : StatusCounts)
    (h : ∀ a ∈ actions, a.status = .created) : countedUp counts actions =
      { counts with created := counts.created + actions.length } := by
  induction actions generalizing counts with
  | nil => rfl
  | cons a actions ih =>
    have hstep := ih (counts.increment a.status) fun x hx => h x (List.mem_cons_of_mem _ hx)
    rw [countedUp, List.foldl_cons, ← countedUp, hstep, h a List.mem_cons_self,
      List.length_cons, Nat.add_comm actions.length 1, ← Nat.add_assoc]
    rfl

/-- Messages change neither rollouts nor groups nor actions. -/
lemma Progression.notify_beside {env : Surroundings} (henv : env.Gentle) (actions : List Action)
    (w : World) : SameProgress w.store ((notify actions).run env w).2.store := by
  induction actions generalizing w with
  | nil => exact .refl _
  | cons a actions ih => exact (henv a w.store).trans (ih ((Effect.dispatch a).perform env w).2)

namespace Live

open Progression

variable {live : Live} {env : Surroundings} {fence : Option Fence} {now : Nat} {w w' : World}
  {s s' t : Store} {r : Rollout} {last : RolloutGroup} {groups : List RolloutGroup}
  {added : List TargetId}

/-! ## Who may join -/

/-- No device may join: there is none, the rollout has no group, the last group has ended, or
together they are too many. -/
def Refuses (quota : Quota) (r : Rollout) (groups : List RolloutGroup) (added : List TargetId) :
    Prop :=
  added = [] ∨ groups = [] ∨ ∃ last, groups.getLast? = some last ∧
    (last.state = .finished ∨ last.state = .error ∨
      quota.maxActionsPerGroup < last.targetCount + added.length ∨
      quota.maxActions < r.totalTargets + added.length)

lemma isDone_iff {state : GroupState} : state.isDone = true ↔ state = .finished ∨ state = .error := by
  cases state <;> simp [GroupState.isDone]

lemma checkGrowth_eq_error {size all added : Nat} {quota : Quota} {fault : QuotaFault}
    (h : Partition.checkGrowth size all added quota = .error fault) :
    quota.maxActionsPerGroup < size + added ∨ quota.maxActions < all + added := by
  rw [Partition.checkGrowth] at h
  split at h
  · rename_i hgroup
    exact .inl hgroup
  split at h
  · rename_i hall
    exact .inr hall
  · cases h

lemma refuses_of_growing?_eq_none {quota : Quota}
    (h : growing? quota r groups added.length = none) : Refuses quota r groups added := by
  unfold growing? at h
  split at h
  · rename_i hnone
    exact .inr (.inl (List.getLast?_eq_none_iff.1 hnone))
  rename_i last hlast
  split at h
  · rename_i hclosed
    rcases hclosed with hnone | hdone
    · exact .inl (List.eq_nil_of_length_eq_zero hnone)
    · exact .inr (.inr ⟨last, hlast, (isDone_iff.1 hdone).elim .inl fun he => .inr (.inl he)⟩)
  split at h
  · cases h
  · rename_i fault hfault
    exact .inr (.inr ⟨last, hlast, .inr (.inr (checkGrowth_eq_error hfault))⟩)

lemma not_refuses_of_growing?_eq_some {quota : Quota}
    (h : growing? quota r groups added.length = some last) : ¬ Refuses quota r groups added := by
  obtain ⟨hlast, hopen, hgrowth⟩ := growing?_eq_some h
  obtain ⟨hgroup, hall⟩ := Partition.of_checkGrowth hgrowth
  rintro (rfl | rfl | ⟨last', hlast', hclosed⟩)
  · unfold growing? at h
    rw [hlast] at h
    simp at h
  · cases hlast
  · obtain rfl := Option.some.inj (hlast.symm.trans hlast')
    rcases hclosed with hs | hs | hlt | hlt
    · simp [hs, GroupState.isDone] at hopen
    · simp [hs, GroupState.isDone] at hopen
    · exact Nat.not_lt_of_le hgroup hlt
    · exact Nat.not_lt_of_le hall hlt

/-! ## Devices that join -/

/-- The second store is the first one with some devices in the last group of a rollout.  If the
group is running, each of them has a new action. -/
structure Joined (s s' : Store) (r : Rollout) (last : RolloutGroup) (added : List TargetId)
    (now : Nat) : Prop where
  /-- The rollout's total has grown, and the time is written. -/
  rollouts : s'.rollouts = Table.put s.rollouts r.id { r with
    totalTargets := r.totalTargets + added.length
    lastResolvedAt := now }
  /-- The devices are behind the members that the group had, and new actions are counted. -/
  groups : s'.groups = Table.put s.groups last.id { last with
    targets := last.targets ++ added
    targetCount := last.targetCount + added.length
    counts := if last.state = .running then
      { last.counts with created := last.counts.created + added.length } else last.counts }
  /-- None of them had an action in the group. -/
  lacking : ∀ t ∈ added, s.actions.find? (Action.idOf last.id t) = none
  /-- Each of them has one now that is as the rollout wants it. -/
  served : last.state = .running → ∀ t ∈ added,
    s'.actions.find? (Action.idOf last.id t) = some (.intact
      { id := Action.idOf last.id t
        rolloutId := r.id
        groupId := last.id
        targetId := t
        distribution := r.distribution
        actionType := r.actionType
        status := .created
        weight := r.weight
        createdAt := now
        lastStatusAt := now })
  /-- All other actions are as they were. -/
  others : ∀ key, (∀ t ∈ added, key ≠ Action.idOf last.id t) →
    s'.actions.find? key = s.actions.find? key
  /-- A group that waits gets no actions, and nothing else happens. -/
  waiting : last.state ≠ .running → s'.actions = s.actions ∧ s'.targets = s.targets ∧
    s'.filters = s.filters ∧ s'.leases = s.leases

/-- A device that is in no group of a rollout has no action in one. -/
lemma action?_eq_none_of_fresh {g : RolloutGroup} {t : TargetId} (h : Keyed s)
    (hg : s.group? g.id = some g) (ht : t ∉ g.targets) :
    s.action? (Action.idOf g.id t) = none := by
  by_contra hsome
  obtain ⟨a, ha⟩ := Option.ne_none_iff_exists'.1 hsome
  obtain ⟨hgroup, rfl⟩ := h.action_member (h.isGroupId hg) ha
  obtain ⟨g', hg', -, hmember⟩ := h.action_group ha
  rw [hgroup, hg] at hg'
  obtain rfl := Option.some.inj hg'
  exact ht hmember

/-- The rollout with the devices that have joined it. -/
def enlarged (r : Rollout) (added : List TargetId) : Rollout :=
  { r with totalTargets := r.totalTargets + added.length }

/-- A group that waits is extended by its devices. -/
lemma joined_of_waiting (hwaits : last.state ≠ .running)
    (hlacking : ∀ t ∈ added, s.actions.find? (Action.idOf last.id t) = none) :
    Joined s ((s.withProgress (enlarged r added) [last.joined added]).withRollout
      { enlarged r added with lastResolvedAt := now }) r last added now where
  rollouts := Table.put_put _ _ _ _
  groups := by
    rw [if_neg hwaits]
    rfl
  lacking := hlacking
  served hrun := absurd hrun hwaits
  others _ _ := rfl
  waiting _ := ⟨rfl, rfl, rfl, rfl⟩

/-- A running group is extended by its devices and their actions. -/
lemma joined_of_running {s₁ s₂ : Store} (hrun : last.state = .running) (hid : IsGroupId last.id)
    (hnodup : added.Nodup)
    (hlacking : ∀ t ∈ added, s.actions.find? (Action.idOf last.id t) = none)
    (hs₁ : s₁ = s.withProgress (enlarged r added) [last.joined added])
    (hs₂ : SameProgress (s₁.issued (last.joined added) (added.map (newAction r last now)) now)
      s₂) :
    Joined s (s₂.withRollout { enlarged r added with lastResolvedAt := now }) r last added
      now := by
  have hids : ((added.map (newAction r last now)).map (·.id)).Nodup :=
    nodup_newActions r now hid hnodup
  have hmissing : s₁.missing (added.map (newAction r last now)) =
      added.map (newAction r last now) := by
    refine List.filter_eq_self.2 fun a ha => ?_
    obtain ⟨t, ht, rfl⟩ := List.mem_map.1 ha
    have hnone : s₁.action? (Action.idOf last.id t) = none := by
      rw [hs₁, action?_withProgress, action?, Table.intact?, hlacking t ht]
    exact Option.isNone_iff_eq_none.2 hnone
  have hcounts : countedUp last.counts (added.map (newAction r last now)) =
      { last.counts with created := last.counts.created + added.length } := by
    rw [countedUp_created, List.length_map]
    intro a ha
    obtain ⟨t, -, rfl⟩ := List.mem_map.1 ha
    rfl
  have hgrun : (last.joined added).state = .running := hrun
  rw [issued, hmissing, begunWith_of_running hgrun] at hs₂
  have hactions : s₂.actions = (s₁.withActions (added.map (newAction r last now))).actions :=
    hs₂.actions
  refine ⟨?_, ?_, hlacking, fun _ t ht => ?_, fun key hkey => ?_, fun h => absurd hrun h⟩
  · rw [withRollout, hs₂.rollouts]
    change Table.put (s₁.withActions _).rollouts r.id _ = _
    rw [rollouts_withActions, hs₁]
    exact Table.put_put _ _ _ _
  · change s₂.groups = _
    rw [hs₂.groups, if_pos hrun, ← hcounts]
    change Table.put (s₁.withActions _).groups last.id _ = _
    rw [groups_withActions, hs₁]
    exact Table.put_put _ _ _ _
  · change s₂.actions.find? _ = _
    have hmem : newAction r last now t ∈ added.map (newAction r last now) :=
      List.mem_map_of_mem ht
    rw [hactions]
    exact Table.intact?_eq_some_iff.1 (action?_withActions_of_mem _ hids hmem)
  · change s₂.actions.find? key = _
    rw [hactions, find?_withActions_of_notMem, hs₁]
    · rfl
    · intro a ha
      obtain ⟨t, ht, rfl⟩ := List.mem_map.1 ha
      exact hkey t ht

/-! ## The operation -/

/-- Issuing the actions of a group has done so, apart from what the messages lead to. -/
lemma issue_ends {g : RolloutGroup} {issued : Issued} {targets : List TargetId}
    (henv : env.Gentle) (h : Keyed w.store) (hg : w.store.group? g.id = some g)
    (hnodup : targets.Nodup)
    (hrun : Operation.Ends env (issue fence r g targets now) w issued w') :
    SameProgress (w.store.issued g (targets.map (newAction r g now)) now) w'.store := by
  have hids := nodup_newActions r now (h.isGroupId hg) hnodup
  obtain ⟨issued', w₁, hcommit, hrest⟩ := hrun.of_bind
  obtain ⟨-, hstore⟩ := Prod.mk.inj (Except.ok.inj
    ((issueActions_run h hg hids).symm.trans hcommit.of_mapError.of_commit))
  obtain ⟨_, w₂, hnotify, hend⟩ := hrest.of_bind
  obtain ⟨-, rfl⟩ := hend.of_pure
  have hbeside := notify_beside henv issued'.created w₁
  rw [hnotify.of_lift] at hbeside
  rw [hstore]
  exact hbeside

/-- Adding devices to a group that may grow has done so. -/
lemma extend_ends {r' : Rollout} (henv : env.Gentle) (h : Sound w.store)
    (hr : w.store.rollout? r.id = some r) (hlast : (w.store.groupsOf r.id).getLast? = some last)
    (hnodup : added.Nodup) (hfresh : ∀ t ∈ added, ∀ g ∈ w.store.groupsOf r.id, t ∉ g.targets)
    (hrun : Operation.Ends env (extend fence last added now) w r' w') :
    r' = enlarged r added ∧
      Joined w.store (w'.store.withRollout { enlarged r added with lastResolvedAt := now }) r last
        added now := by
  have hmem := List.mem_of_getLast? hlast
  obtain ⟨hstored, hof⟩ := h.mem_groupsOf.1 hmem
  have hnew : ∀ t ∈ added, t ∉ last.targets := fun t ht => hfresh t ht last hmem
  have hlacking : ∀ t ∈ added, w.store.actions.find? (Action.idOf last.id t) = none := fun t ht =>
    Table.find?_eq_none h.actions_intact (action?_eq_none_of_fresh h.toKeyed hstored (hnew t ht))
  obtain ⟨⟨r₁, g₁⟩, w₁, happend, hrest⟩ := hrun.of_bind
  have happended := appendTargets_run h.toKeyed hstored (hof ▸ hr) hnodup hnew
  obtain ⟨hvalue, hstore⟩ := Prod.mk.inj (Except.ok.inj
    (happended.symm.trans happend.of_mapError.of_commit))
  obtain ⟨rfl, rfl⟩ := Prod.mk.inj hvalue
  dsimp only at hrest
  split at hrest
  · rename_i hgrun
    obtain ⟨issued, w₂, hissue, hend⟩ := hrest.of_bind
    obtain ⟨rfl, rfl⟩ := hend.of_pure
    have hkeyed : Keyed w₁.store := hstore ▸ (h.joined hr hlast hnodup hfresh).toKeyed
    have hjoined : w₁.store.group? (last.joined added).id = some (last.joined added) := by
      rw [← hstore, group?_withProgress_singleton, if_pos rfl]
    exact ⟨rfl, joined_of_running hgrun (h.isGroupId hstored) hnodup hlacking hstore.symm
      (issue_ends henv hkeyed hjoined hnodup hissue)⟩
  · rename_i hgrun
    obtain ⟨rfl, rfl⟩ := hrest.of_pure
    refine ⟨rfl, ?_⟩
    rw [← hstore]
    exact joined_of_waiting hgrun hlacking

/-- The devices that are new to a rollout, and the world behind their resolution. -/
structure News (live : Live) (env : Surroundings) (w : World) (r : Rollout)
    (groups : List RolloutGroup) (added : List TargetId) (w₁ : World) : Prop where
  /-- The groups are all that the rollout has. -/
  listed : Lists w.store r.id groups
  /-- The devices are those that its filter selects and that are in none of them. -/
  selected : ∃ resolved : OrderedSet,
    Operation.Ends env (live.resolver r.targetFilter) w resolved w₁ ∧
      ∀ t, t ∈ added ↔ t ∈ resolved ∧ ∀ g ∈ groups, t ∉ g.targets
  sorted : added.Pairwise (· < ·)
  /-- To resolve a filter changes neither rollouts nor groups nor actions. -/
  beside : SameProgress w.store w₁.store

/-- What a live resolution of a rollout has done that succeeds with a number of devices. -/
inductive Refreshed (live : Live) (env : Surroundings) (now : Nat) (w : World) (r : Rollout) :
    Nat → Store → Prop
  /-- It was not due, and nothing has happened. -/
  | early (hdue : live.isDue r now = false) : Refreshed live env now w r 0 w.store
  /-- No device may join, and the time is written. -/
  | refused {groups : List RolloutGroup} {added : List TargetId} {w₁ : World}
      (hdue : live.isDue r now = true) (hnews : News live env w r groups added w₁)
      (hrefuses : Refuses live.quota r groups added) :
      Refreshed live env now w r 0 (w₁.store.withRollout { r with lastResolvedAt := now })
  /-- All new devices are in the last group. -/
  | joined {groups : List RolloutGroup} {added : List TargetId} {w₁ : World}
      {last : RolloutGroup} {s' : Store}
      (hdue : live.isDue r now = true) (hnews : News live env w r groups added w₁)
      (hlast : groups.getLast? = some last) (haccepts : ¬ Refuses live.quota r groups added)
      (hjoined : Joined w₁.store s' r last added now) :
      Refreshed live env now w r added.length s'

lemma mem_fresh {resolved : OrderedSet} {t : TargetId} :
    t ∈ fresh groups resolved ↔ t ∈ resolved ∧ ∀ g ∈ groups, t ∉ g.targets := by
  refine ⟨fun ht => ⟨(List.mem_filter.1 ht).1, not_mem_targets_of_mem_fresh ht⟩,
    fun ⟨hmem, hnone⟩ => List.mem_filter.2 ⟨hmem, ?_⟩⟩
  simpa [isMember] using hnone

lemma requireRollout_ends {id : RolloutId}
    (hrun : Operation.Ends env (requireRollout id) w r w') : w.store.rollout? id = some r ∧ w' = w := by
  obtain ⟨found, w₁, hread, hrest⟩ := hrun.of_bind
  obtain ⟨hfound, rfl⟩ := hread.of_mapError.of_read
  cases found with
  | none => cases hrest
  | some r' =>
    obtain ⟨rfl, rfl⟩ := hrest.of_pure
    exact ⟨Table.read_eq_some_iff.1 hfound, rfl⟩

lemma saveRollout_ends {u : Unit} (hrun : Operation.Ends env (saveRollout fence r) w u w') :
    w'.store = w.store.withRollout r :=
  modify_eq_ok hrun.of_mapError.of_commit

lemma resolve_beside {filter : String} {resolved : OrderedSet} (hcalm : live.resolver.Calm)
    (hrun : Operation.Ends env (live.resolver filter) w resolved w') :
    SameProgress w.store w'.store := by
  have hunder : Program.Under .silent (ExceptT.run (live.resolver filter))
      (fun _ => SameProgress w.store) w.store := (hcalm filter).under fun _ _ hs => hs
  have hend : SameProgress w.store ((ExceptT.run (live.resolver filter)).run env w).2.store :=
    (hunder.run fun _ _ => trivial).2
  unfold Operation.Ends at hrun
  rwa [hrun] at hend

/-- **What a live resolution comes to.** -/
theorem refresh_ends {id : RolloutId} {n : Nat} (hcalm : live.resolver.Calm) (henv : env.Gentle)
    (h : Sound w.store) (hrun : Operation.Ends env (live.refresh fence id now) w n w') :
    ∃ r, w.store.rollout? id = some r ∧ Refreshed live env now w r n w'.store := by
  obtain ⟨r, w₁, hrequire, hrest⟩ := hrun.of_bind
  obtain ⟨hr, rfl⟩ := requireRollout_ends hrequire
  obtain rfl : r.id = id := (h.rollout_key hr).1
  refine ⟨r, hr, ?_⟩
  split at hrest
  · rename_i hdue
    obtain ⟨groups, w₂, hlist, hrest⟩ := hrest.of_bind
    obtain ⟨hgroups, rfl⟩ := hlist.of_mapError.of_read
    rw [h.listGroups_eq hr] at hgroups
    obtain rfl := Except.ok.inj hgroups
    obtain ⟨resolved, w₁, hresolve, hrest⟩ := hrest.of_bind
    have hs : SameProgress w₂.store w₁.store := resolve_beside hcalm hresolve
    have hrunning := running_of_isDue hdue
    have hd := (h.agrees hr).deleted_eq_false_of_running hrunning
    have hnews : News live env w₂ r (w₂.store.groupsOf r.id)
        (fresh (w₂.store.groupsOf r.id) resolved) w₁ :=
      ⟨h.lists hr hd, ⟨resolved, hresolve, fun t => mem_fresh⟩, resolved.ascending.filter _, hs⟩
    have hrow : w₁.store.rollout? r.id = some r := by
      rw [rollout?, hs.rollouts, ← rollout?]
      exact hr
    have hgroups : w₁.store.groupsOf r.id = w₂.store.groupsOf r.id := by
      rw [groupsOf, hs.groups, ← groupsOf]
    dsimp only at hrest
    split at hrest
    · rename_i hnone
      obtain ⟨u, w₃, hsave, hend⟩ := hrest.of_bind
      obtain ⟨rfl, rfl⟩ := hend.of_pure
      rw [saveRollout_ends hsave]
      exact .refused hdue hnews (refuses_of_growing?_eq_none hnone)
    · rename_i last hsome
      obtain ⟨r', w₃, hextend, hrest⟩ := hrest.of_bind
      obtain ⟨u, w₄, hsave, hend⟩ := hrest.of_bind
      obtain ⟨rfl, rfl⟩ := hend.of_pure
      have hlast := (growing?_eq_some hsome).1
      obtain ⟨rfl, hjoined⟩ := extend_ends henv (h.congr hs) hrow (hgroups ▸ hlast)
        (nodup_fresh _ resolved)
        (fun t ht => hgroups ▸ not_mem_targets_of_mem_fresh ht) hextend
      rw [saveRollout_ends hsave]
      exact .joined hdue hnews hlast (not_refuses_of_growing?_eq_some hsome) hjoined
  · rename_i hdue
    obtain ⟨rfl, rfl⟩ := hrest.of_pure
    exact .early (Bool.not_eq_true _ ▸ hdue)

end Live

/-! ## Members change in no other way -/

/-- The members of a group are the same ones. -/
def RolloutGroup.SameMembers (g g' : RolloutGroup) : Prop :=
  g'.targets = g.targets ∧ g'.targetCount = g.targetCount

lemma RolloutGroup.Turn.members {allowed : Intent → Prop} {state : RolloutState}
    {g g' : RolloutGroup} (h : Turn allowed state g g') :
    g.SameMembers g' ∨ ∃ quota, allowed (.join quota) := by
  cases h with
  | begun => exact .inl ⟨(sameRoster_begunWith g _ _).targets, (sameRoster_begunWith g _ _).targetCount⟩
  | joined hmay => exact .inr ⟨_, hmay⟩
  | judged _ hend =>
    obtain ⟨-, state, outcome, -, rfl⟩ := settle?_eq hend
    exact .inl ⟨rfl, rfl⟩
  | triggered _ hend =>
    obtain ⟨-, rfl⟩ := trigger?_eq hend
    exact .inl ⟨rfl, rfl⟩
  | acknowledged => exact .inl ⟨rfl, rfl⟩

namespace Store

variable {allowed : Intent → Prop} {s s' t t' : Store} {key : GroupId} {g : RolloutGroup}

/-- A group has the members that it had before, or it is gone for good. -/
def Enduring (key : GroupId) (g : RolloutGroup) (s : Store) : Prop :=
  (∃ r, s.rollout? g.rolloutId = some r) ∧ ∀ g', s.group? key = some g' → g.SameMembers g'

/-- **Members change only where devices join.** -/
lemma Enduring.step (h : Enduring key g t) (hs : Keyed s) (hg : s.group? key = some g)
    (ht : Sound t) (hstep : Step allowed t t') :
    Enduring key g t' ∨ ∃ quota, allowed (.join quota) := by
  obtain ⟨⟨r, hr⟩, hmembers⟩ := h
  have hrow := hstep.exists_rollout hr
  have hchange := hstep.group ht key
  generalize hafter : t'.group? key = after at hchange
  generalize hbefore : t.group? key = before at hchange hmembers
  have hgoal : (∀ g', after = some g' → g.SameMembers g') ∨ ∃ quota, allowed (.join quota) := by
    cases hchange with
    | same => exact .inl hmembers
    | created hnew =>
      -- a group of a rollout that exists is never made again
      have hof := hs.group_rollout_eq (ht.step hstep).toKeyed hg hafter
      rw [hof, hr] at hnew
      cases hnew
    | counted hcounts =>
      refine .inl fun g' heq => ?_
      obtain rfl := Option.some.inj heq
      have hsame := hmembers _ rfl
      rw [hcounts.rest]
      exact hsame
    | turned _ hturn =>
      refine hturn.members.imp_left fun hsame g' heq => ?_
      obtain rfl := Option.some.inj heq
      have hfirst := hmembers _ rfl
      exact ⟨hsame.1.trans hfirst.1, hsame.2.trans hfirst.2⟩
    | uncounted =>
      refine .inl fun g' heq => ?_
      obtain rfl := Option.some.inj heq
      have hfirst := hmembers _ rfl
      exact ⟨hfirst.1, hfirst.2⟩
    | removed => exact .inl fun g' heq => by cases heq
  rw [Enduring, hafter]
  exact hgoal.imp_left fun h => ⟨hrow, h⟩

end Store

/-- Who changes the members of a group lets devices join. -/
lemma Trail.joins {allowed : Intent → Prop} {s s' : Store} {l : List Action} {key : GroupId}
    {g g' : RolloutGroup} (h : Trail (Step allowed) s l s') (hs : Sound s)
    (hg : s.group? key = some g) (hg' : s'.group? key = some g') :
    g.SameMembers g' ∨ ∃ quota, allowed (.join quota) := by
  by_cases hend : Enduring key g s'
  · exact .inl (hend.2 g' hg')
  · have hstart : Enduring key g s :=
      ⟨hs.group_rollout hg, fun x hx => Option.some.inj (hg.symm.trans hx) ▸ ⟨rfl, rfl⟩⟩
    obtain ⟨t, t', _, _, hbefore, ht, hstep, hbreak, -⟩ := h.exists_break hstart hend
    exact .inr ((ht.step hs.toKeyed hg (hbefore.sound hs) hstep).resolve_left hbreak)

/-- A live resolution, or a cycle that makes live resolutions. -/
inductive Activity.Resolves : Activity → Prop
  | cycle {s : Scheduler} {live : Live} {now : Nat} {retries : Retries}
      (h : s.live = some live) : Resolves (.cycle s now retries)
  | refresh {live : Live} {fence : Option Fence} {id : RolloutId} {now : Nat} :
      Resolves (.refresh live fence id now)

lemma Activity.May.resolves {x : Activity} {quota : Quota} (h : x.May (.join quota)) :
    x.Resolves := by
  cases h with
  | joinInCycle hlive => exact .cycle hlive
  | join => exact .refresh
  | drive _ hd => cases hd

namespace Run

/-- **A live resolution adds exactly the missing devices, or nothing.**  Behind every run, one that
succeeds with a number has done what `Live.Refreshed` says.  And the members of a group that stays
change only by live resolutions, on their own or as part of a cycle. -/
theorem refreshed_exactly (run : Run) :
    (∀ {live : Live} {fence : Option Fence} {id : RolloutId} {now n : Nat} {env : Surroundings}
      {w w' : World}, live.resolver.Calm → env.Gentle → w.store = run.store →
      Operation.Ends env (live.refresh fence id now) w n w' →
      ∃ r, Table.read run.store.rollouts id = .ok (some r) ∧
        live.Refreshed env now w r n w'.store) ∧
    ∀ (h : Happening) (key : GroupId) (g g' : RolloutGroup),
      Table.read run.store.groups key = .ok (some g) →
      Table.read (run ++ [h]).store.groups key = .ok (some g') →
      (g'.targets = g.targets ∧ g'.targetCount = g.targetCount) ∨ h.activity.Resolves := by
  refine ⟨fun hcalm henv hw hrun => ?_, fun h key g g' hg hg' => ?_⟩
  · rw [← hw]
    obtain ⟨r, hr, hrefreshed⟩ := Live.refresh_ends hcalm henv (hw ▸ run.sound) hrun
    exact ⟨r, Table.read_eq_some_iff.2 hr, hrefreshed⟩
  · refine ((run.proceeds h).joins run.sound (Table.read_eq_some_iff.1 hg)
      (Table.read_eq_some_iff.1 hg')).imp_right ?_
    rintro ⟨quota, hmay⟩
    exact hmay.resolves

/-- A fifth device is registered when the first stage of three is done. -/
def joining : Run := threeStages ++ [registration "e"]

/-- A live resolution then adds the device to the last stage. -/
theorem refreshed_exactly_joining :
    ∃ w' r, Operation.Ends quiet ((⟨.ofStore, .standard, 0⟩ : Live).refresh none "r" 8)
        joining.world 1 w' ∧ Table.read joining.store.rollouts "r" = .ok (some r) ∧
      (⟨.ofStore, .standard, 0⟩ : Live).Refreshed quiet 8 joining.world r 1 w'.store := by
  have hrun : Operation.Ends quiet ((⟨.ofStore, .standard, 0⟩ : Live).refresh none "r" 8)
      joining.world 1 ((ExceptT.run ((⟨.ofStore, .standard, 0⟩ : Live).refresh none "r" 8)).run
        quiet joining.world).2 := Prod.ext (by cbv) rfl
  obtain ⟨r, hr, hrefreshed⟩ :=
    (refreshed_exactly joining).1 Resolver.ofStore_calm (fun _ s => .refl s) rfl hrun
  exact ⟨_, r, hrun, hr, hrefreshed⟩

end Run

end StagedRollout
