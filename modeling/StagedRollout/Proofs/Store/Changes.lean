/-
# Changes of rows

What a step makes of one row, read off the rules for moves and issues once for each table:
`RolloutChange`, `GroupChange` and `ActionChange` list all that can become of the row under an id,
which may also be missing before the step or behind it.  Whatever holds of a rollout, a group or an
action over a run is shown case by case of these.
-/
import StagedRollout.Proofs.Store.History

namespace StagedRollout

open RolloutGroup Progression Transaction

/-! ## Rows that may be missing -/

lemma rel_refl {α : Type} {R : α → α → Prop} (h : ∀ a, R a a) (row : Option α) :
    Option.Rel R row row := by
  cases row with
  | none => exact .none
  | some a => exact .some (h a)

lemma rel_trans {α : Type} {R : α → α → Prop} (htrans : ∀ {a b c}, R a b → R b c → R a c)
    {x y z : Option α} (h : Option.Rel R x y) (h' : Option.Rel R y z) : Option.Rel R x z := by
  cases h with
  | none => exact h'
  | some h =>
    cases h' with
    | some h' => exact .some (htrans h h')

namespace Store

variable {allowed : Intent → Prop} {s s' : Store}

@[simp] lemma rollout?_withProgress (s : Store) (r : Rollout) (groups : List RolloutGroup)
    (id : RolloutId) :
    (s.withProgress r groups).rollout? id = if id = r.id then some r else s.rollout? id := by
  simp [withProgress]

@[simp] lemma action?_withProgress (s : Store) (r : Rollout) (groups : List RolloutGroup)
    (id : ActionId) : (s.withProgress r groups).action? id = s.action? id := by
  simp [withProgress]

lemma rollouts_cancelled (s : Store) (actions : List Action) (now : Nat) :
    (s.cancelled actions now).rollouts = s.rollouts := by
  induction actions generalizing s with
  | nil => rfl
  | cons a actions ih => exact (ih (s.withStatus a .canceling now)).trans (by simp)

@[simp] lemma rollout?_cancelled (s : Store) (actions : List Action) (now : Nat)
    (id : RolloutId) : (s.cancelled actions now).rollout? id = s.rollout? id := by
  rw [rollout?, rollouts_cancelled, rollout?]

/-! ## Rollouts -/

end Store

/-- The row of a rollout that has followed a command. -/
structure Rollout.Obeys (c : Command) (r r' : Rollout) : Prop where
  leads : r.state.Leads c r'.state
  id : r'.id = r.id
  startPolicy : r'.startPolicy = r.startPolicy
  groupIds : r'.groupIds = if c = .purged then [] else r.groupIds

lemma Rollout.Obeys.of_apply {r r' : Rollout} {c : Command} {now : Nat} (hc : c ≠ .purged)
    (happly : r.apply? c now = some r') : Rollout.Obeys c r r' := by
  obtain ⟨hleads, hrow⟩ := Rollout.apply?_eq_some happly
  refine ⟨hleads, Rollout.id_of_apply happly, ?_, ?_⟩
  · rw [congrArg Rollout.startPolicy hrow]
  · rw [if_neg hc, congrArg Rollout.groupIds hrow]

/-- An error may be recorded with a command. -/
lemma Rollout.Obeys.noting {r r' : Rollout} {c : Command} (h : Rollout.Obeys c r r')
    (reason : Option String) : Rollout.Obeys c r { r' with lastError := reason } :=
  ⟨h.leads, h.id, h.startPolicy, h.groupIds⟩

/-- With a purge the list of groups is emptied. -/
lemma Rollout.Obeys.emptied {r r' : Rollout} {now : Nat} (happly : r.apply? .purged now = some r') :
    Rollout.Obeys .purged r { r' with groupIds := [] } := by
  obtain ⟨hleads, hrow⟩ := Rollout.apply?_eq_some happly
  refine ⟨hleads, ?_, ?_, rfl⟩
  · exact (Rollout.id_of_apply happly : r'.id = r.id)
  · change r'.startPolicy = r.startPolicy
    rw [congrArg Rollout.startPolicy hrow]

namespace Store

/-- What a step makes of the row of a rollout. -/
inductive RolloutChange (allowed : Intent → Prop) (s : Store) :
    Option Rollout → Option Rollout → Prop
  | same (row : Option Rollout) : RolloutChange allowed s row row
  /-- The rollout is new. -/
  | created {n : NewRollout} {quota : Quota} {approval : Bool} {r : Rollout}
      (hmay : allowed (.create n quota approval)) (hname : r.id = n.name)
      (hstate : r.state = if approval then .waitingForApproval else .ready) :
      RolloutChange allowed s none (some r)
  /-- It follows a command. -/
  | ordered {r r' : Rollout} {c : Command} (hmay : allowed (.order r c))
      (hobeys : Rollout.Obeys c r r') (hpurged : c = .purged → s.groupsOf r.id = []) :
      RolloutChange allowed s (some r) (some r')
  /-- It is running and was resolved again. -/
  | resolved {r : Rollout} (hrun : r.state = .running) (total now : Nat) :
      RolloutChange allowed s (some r)
        (some { r with totalTargets := total, lastResolvedAt := now })

/-- The row of one rollout is written, and the others stay as they are. -/
lemma RolloutChange.put {r r' : Rollout} (hr : s.rollout? r.id = some r)
    (hchange : RolloutChange allowed s (some r) (some r')) (hid : r'.id = r.id) (id : RolloutId) :
    RolloutChange allowed s (s.rollout? id) (if id = r'.id then some r' else s.rollout? id) := by
  split
  · rename_i heq
    rw [heq, hid, hr]
    exact hchange
  · exact .same _

/-- The row of a rollout that follows a command is written. -/
lemma RolloutChange.order {r r' : Rollout} {c : Command} (hr : s.rollout? r.id = some r)
    (hmay : allowed (.order r c)) (hobeys : Rollout.Obeys c r r') (hc : c ≠ .purged)
    (id : RolloutId) :
    RolloutChange allowed s (s.rollout? id) (if id = r'.id then some r' else s.rollout? id) :=
  .put hr (.ordered hmay hobeys fun heq => absurd heq hc) hobeys.id id

/-- A new rollout waits for approval, or it is ready. -/
lemma state_of_created {r r' : Rollout} {approval : Bool} {now : Nat}
    (hcreating : r.state = .creating) (happly : r.apply? (.created approval) now = some r') :
    r'.state = if approval then .waitingForApproval else .ready := by
  have hnext := Rollout.state_apply? happly
  rw [hcreating] at hnext
  cases approval <;> exact (Option.some.inj hnext).symm

/-- **What a move makes of the row of a rollout.** -/
theorem Move.rollout (hm : Move allowed s s') (id : RolloutId) :
    RolloutChange allowed s (s.rollout? id) (s'.rollout? id) := by
  have hsame (heq : s'.rollouts = s.rollouts) :
      RolloutChange allowed s (s.rollout? id) (s'.rollout? id) := by
    rw [rollout?, rollout?, heq]
    exact .same _
  cases hm with
  | beside hs => exact hsame hs.rollouts
  | @create n quota targets plans approval now r hmay _ _ hnew happly =>
    have hid : r.id = n.name := Rollout.id_of_apply happly
    rw [rollout?_withProgress]
    split
    · rename_i heq
      rw [heq, hid, hnew]
      exact .created hmay hid (state_of_created rfl happly)
    · exact .same _
  | @order r r' c now hmay hr hc happly =>
    have hne : c ≠ .purged := fun heq => by simp [heq, Command.isPlain] at hc
    rw [rollout?_withRollout]
    exact .order hr hmay (.of_apply hne happly) hne id
  | resume hmay hr happly =>
    rw [rollout?_withProgress]
    exact .order hr hmay (.of_apply (by simp) happly) (by simp) id
  | stop hmay hr happly =>
    rw [rollout?_cancelled, rollout?_withRollout]
    exact .order hr hmay (.of_apply (by simp) happly) (by simp) id
  | trigger | settle => exact hsame rfl
  | @fail r r' g g' now reason hmay hr _ _ _ _ happly =>
    have hobeys : Rollout.Obeys (.groupFailed g.errorAction) r r' := .of_apply (by simp) happly
    rw [rollout?_withProgress]
    exact .order hr hmay (hobeys.noting (some reason)) (by simp) id
  | finish hmay hr _ happly =>
    rw [rollout?_withRollout]
    exact .order hr hmay (.of_apply (by simp) happly) (by simp) id
  | @giveUp r r' now reason hmay hr happly =>
    have hobeys : Rollout.Obeys .retriesExhausted r r' := .of_apply (by simp) happly
    rw [rollout?_withRollout]
    exact .order hr hmay (hobeys.noting (some reason)) (by simp) id
  | @stamp r now hr hrun =>
    rw [rollout?_withRollout]
    exact .put hr (.resolved hrun r.totalTargets now) rfl id
  | @join r last quota added _ hr hrun =>
    rw [rollout?_withProgress]
    exact .put hr (.resolved hrun (r.totalTargets + added.length) r.lastResolvedAt) rfl id
  | report => exact hsame (rollouts_withStatus s _ _ _)
  | dropAction => exact hsame (rollouts_dropped s _)
  | dropGroup => exact hsame rfl
  | @purge _ r r' now hmay hr hnone happly hs =>
    have hobeys := Rollout.Obeys.emptied happly
    have hrow : s'.rollout? id = (s.withRollout { r' with groupIds := [] }).rollout? id := by
      rw [rollout?, hs.rollouts, ← rollout?]
    rw [hrow, rollout?_withRollout]
    exact .put hr (.ordered hmay hobeys fun _ => hnone) hobeys.id id

theorem Step.rollout (h : Step allowed s s') (id : RolloutId) :
    RolloutChange allowed s (s.rollout? id) (s'.rollout? id) := by
  rcases h with hm | ⟨-, hi⟩
  · exact hm.rollout id
  · cases hi with
    | issue =>
      rw [issued, rollout?_withGroup, rollout?_withActions]
      exact .same _

lemma Step.exists_rollout (hs : Step allowed s s') {id : RolloutId} {r : Rollout}
    (hr : s.rollout? id = some r) : ∃ r', s'.rollout? id = some r' := by
  have hchange := hs.rollout id
  rw [hr] at hchange
  generalize s'.rollout? id = row at hchange ⊢
  cases hchange with
  | same | ordered | resolved => exact ⟨_, rfl⟩

/-- **A deleted rollout stays deleted.** -/
lemma Step.deleted (h : Sound s) (hs : Step allowed s s') {id : RolloutId} {r r' : Rollout}
    (hr : s.rollout? id = some r) (hr' : s'.rollout? id = some r') (hd : r.deleted = true) :
    r'.deleted = true := by
  have hstate := (h.agrees hr).deleted_iff.1 hd
  have hchange := hs.rollout id
  rw [hr, hr'] at hchange
  cases hchange with
  | same => exact hd
  | ordered _ hobeys =>
    obtain ⟨-, -, hdest⟩ := hobeys.leads.of_deleted hstate
    exact ((h.step hs).agrees hr').deleted_iff.2 (.inr hdest)
  | resolved hrun => exact hd

lemma Step.keeps_deleted (h : Sound s) (hs : Step allowed s s') {id : RolloutId} {r : Rollout}
    (hr : s.rollout? id = some r) (hd : r.deleted = true) :
    ∃ r', s'.rollout? id = some r' ∧ r'.deleted = true := by
  obtain ⟨r', hr'⟩ := hs.exists_rollout hr
  exact ⟨r', hr', hs.deleted h hr hr' hd⟩

/-! ## Groups -/

end Store

namespace RolloutGroup

/-- Nothing but counters changes, by reports. -/
structure CountsOn (g g' : RolloutGroup) : Prop where
  counts : g.counts.Progresses g'.counts
  rest : g' = { g with counts := g'.counts }

/-- How a group goes on while its rollout is in some state. -/
inductive Turn (allowed : Store.Intent → Prop) : RolloutState → RolloutGroup → RolloutGroup → Prop
  /-- It gets actions and is running. -/
  | begun {g : RolloutGroup} {actions : List Action} {now : Nat} (hmay : allowed .issue)
      (hg : g.state = .running ∨ g.state = .scheduled) :
      Turn allowed .running g (Store.begunWith g actions now)
  /-- Devices join it. -/
  | joined {g : RolloutGroup} {quota : Quota} {added : List TargetId}
      (hmay : allowed (.join quota)) (hopen : g.state.isDone = false) :
      Turn allowed .running g (g.joined added)
  | judged {g g' : RolloutGroup} {now : Nat} (hstaffed : IsStaffed g)
      (hend : g.settle? g.verdict now = some g') : Turn allowed .running g g'
  /-- An operator ends it. -/
  | triggered {g g' : RolloutGroup} {now : Nat} (hmay : allowed (.trigger g.rolloutId))
      (hend : g.trigger? now = some g') : Turn allowed .running g g'
  | acknowledged {g : RolloutGroup} (hpausing : Store.IsPausing g) :
      Turn allowed .paused g { g with errorAcknowledged := true }

variable {allowed : Store.Intent → Prop} {g g' g'' : RolloutGroup} {state : RolloutState}

lemma CountsOn.refl (g : RolloutGroup) : CountsOn g g := ⟨.refl g.counts, rfl⟩

lemma CountsOn.trans (h : CountsOn g g') (h' : CountsOn g' g'') : CountsOn g g'' where
  counts := h.counts.trans h'.counts
  rest := by rw [h'.rest, h.rest]

lemma settle?_eq {verdict : Verdict} {now : Nat} (h : g.settle? verdict now = some g') :
    g.state = .running ∧ ∃ state outcome, settledBy verdict = some (state, outcome) ∧
      g' = { g with state := state, outcome := outcome, finishedAt := some now } := by
  unfold settle? at h
  split at h
  · rename_i hrun
    obtain ⟨⟨state, outcome⟩, hsettled, rfl⟩ := Option.map_eq_some_iff.1 h
    exact ⟨hrun, state, outcome, hsettled, rfl⟩
  · simp at h

lemma trigger?_eq {now : Nat} (h : g.trigger? now = some g') :
    g.state = .running ∧
      g' = { g with state := .finished, outcome := some .triggered, finishedAt := some now } := by
  unfold trigger? at h
  split at h
  · rename_i hrun
    exact ⟨hrun, (Option.some.inj h).symm⟩
  · simp at h

/-- Groups go on while their rollout runs or is paused. -/
lemma Turn.state_eq (h : Turn allowed state g g') : state = .running ∨ state = .paused := by
  cases h <;> simp

lemma Turn.id (h : Turn allowed state g g') : g'.id = g.id := by
  cases h with
  | begun => exact (Store.sameRoster_begunWith g _ _).id
  | joined | acknowledged => rfl
  | judged _ hend =>
    obtain ⟨-, state, outcome, -, rfl⟩ := settle?_eq hend
    rfl
  | triggered _ hend =>
    obtain ⟨-, rfl⟩ := trigger?_eq hend
    rfl

lemma Turn.rolloutId (h : Turn allowed state g g') : g'.rolloutId = g.rolloutId := by
  cases h with
  | begun => exact Store.rolloutId_begunWith g _ _
  | joined | acknowledged => rfl
  | judged _ hend =>
    obtain ⟨-, state, outcome, -, rfl⟩ := settle?_eq hend
    rfl
  | triggered _ hend =>
    obtain ⟨-, rfl⟩ := trigger?_eq hend
    rfl

end RolloutGroup

namespace Store

variable {allowed : Intent → Prop} {s s' : Store}

/-- What a step makes of the row of a group. -/
inductive GroupChange (allowed : Intent → Prop) (s : Store) :
    Option RolloutGroup → Option RolloutGroup → Prop
  | same (row : Option RolloutGroup) : GroupChange allowed s row row
  /-- The group is new with its rollout. -/
  | created {g : RolloutGroup} (hnew : s.rollout? g.rolloutId = none)
      (hwaits : g.state = .scheduled) (hopen : g.outcome = none)
      (hacknowledged : g.errorAcknowledged = false) (hstart : g.startedAt = none)
      (hend : g.finishedAt = none) : GroupChange allowed s none (some g)
  | counted {g g' : RolloutGroup} (h : g.CountsOn g') : GroupChange allowed s (some g) (some g')
  | turned {r : Rollout} {g g' : RolloutGroup} (hr : s.rollout? g.rolloutId = some r)
      (h : Turn allowed r.state g g') : GroupChange allowed s (some g) (some g')
  /-- An action of it is removed. -/
  | uncounted {r : Rollout} {g : RolloutGroup} (hr : s.rollout? g.rolloutId = some r)
      (hdeleting : r.state = .deleting) (counts : StatusCounts) :
      GroupChange allowed s (some g) (some { g with counts := counts })
  /-- It is removed. -/
  | removed {r : Rollout} {g : RolloutGroup} (hr : s.rollout? g.rolloutId = some r)
      (hdeleting : r.state = .deleting) : GroupChange allowed s (some g) none

/-- The row of one group is written, and the others stay as they are. -/
lemma GroupChange.put {t : Store} {g g' : RolloutGroup} (hg : s.group? g.id = some g)
    (hchange : GroupChange allowed t (some g) (some g')) (hid : g'.id = g.id) (id : GroupId) :
    GroupChange allowed t (s.group? id) (if id = g'.id then some g' else s.group? id) := by
  split
  · rename_i heq
    rw [heq, hid, hg]
    exact hchange
  · exact .same _

lemma GroupChange.turn {r : Rollout} {g g' : RolloutGroup} (h : Keyed s)
    (hr : s.rollout? r.id = some r) (hg : g ∈ s.groupsOf r.id) (hturn : Turn allowed r.state g g')
    (id : GroupId) :
    GroupChange allowed s (s.group? id) (if id = g'.id then some g' else s.group? id) := by
  obtain ⟨hstored, hof⟩ := h.mem_groupsOf.1 hg
  exact .put hstored (.turned (hof ▸ hr) hturn) hturn.id id

lemma GroupChange.of_countsOn {row row' : Option RolloutGroup}
    (h : Option.Rel CountsOn row row') : GroupChange allowed s row row' := by
  cases h with
  | none => exact .same none
  | some h => exact .counted h

lemma group?_withProgress_singleton (s : Store) (r : Rollout) (g : RolloutGroup) (id : GroupId) :
    (s.withProgress r [g]).group? id = if id = g.id then some g else s.group? id := by
  simp [withProgress, withGroups]

/-- An action that is stored is counted by its group. -/
lemma Sound.count_pos {key : ActionId} {a : Action} {g : RolloutGroup} (h : Sound s)
    (ha : s.action? key = some a) (hg : s.group? a.groupId = some g) :
    0 < g.counts.get a.status := by
  have hle := s.share_le_tally ha a.groupId a.status
  rw [h.counted hg, ← Nat.succ_le_iff]
  rw [share, if_pos ⟨rfl, rfl⟩] at hle
  exact hle

/-- A new status of an action is counted by its group. -/
lemma Sound.countsOn_withStatus {a : Action} (h : Sound s) (ha : s.action? a.id = some a)
    (hopen : a.status.isTerminal = false) (status : ActionStatus) (now : Nat) (id : GroupId) :
    Option.Rel CountsOn (s.group? id) ((s.withStatus a status now).group? id) := by
  obtain ⟨g, hg, -⟩ := h.action_group ha
  rw [withStatus_eq hg, group?_withGroup, group?_withAction]
  split
  · rename_i heq
    have hrow : s.group? id = some g := by
      rw [heq, (h.group_key hg).1]
      exact hg
    rw [hrow]
    exact .some ⟨.move hopen (h.count_pos ha hg) status, rfl⟩
  · exact rel_refl CountsOn.refl _

lemma Sound.countsOn_cancelled {actions : List Action} (h : Sound s)
    (hn : (actions.map (·.id)).Nodup) (hstored : ∀ a ∈ actions, s.action? a.id = some a)
    (hopen : ∀ a ∈ actions, a.status.isTerminal = false) (now : Nat) (id : GroupId) :
    Option.Rel CountsOn (s.group? id) ((s.cancelled actions now).group? id) := by
  induction actions generalizing s with
  | nil => exact rel_refl CountsOn.refl _
  | cons a actions ih =>
    have ha := hstored a List.mem_cons_self
    have hrest := ih (h.withStatus ha .canceling now) (nodup_keys_cons hn).2
      (stored_withStatus hn hstored .canceling now) fun x hx => hopen x (List.mem_cons_of_mem _ hx)
    exact rel_trans (R := CountsOn) CountsOn.trans
      (h.countsOn_withStatus ha (hopen a List.mem_cons_self) .canceling now id) hrest

/-- **What a move makes of the row of a group.** -/
theorem Move.group (h : Sound s) (hm : Move allowed s s') (id : GroupId) :
    GroupChange allowed s (s.group? id) (s'.group? id) := by
  cases hm with
  | beside hs =>
    rw [group?, group?, hs.groups]
    exact .same _
  | @create n quota targets plans approval now r _ hcheck hplans hnew happly =>
    have hid : r.id = n.name := Rollout.id_of_apply happly
    have hgroups : NewGroups r (n.groupsFrom 0 plans) :=
      NewRollout.newGroups (partition_fair hplans).count_le hid
    have hnone := h.toKeyed.group?_new_eq_none (hid ▸ hnew)
      (hid ▸ NewRollout.isName_of_check hcheck) hgroups
    by_cases hx : ∃ g ∈ n.groupsFrom 0 plans, g.id = id
    · obtain ⟨g, hg, rfl⟩ := hx
      rw [hnone g hg, withProgress, group?_withGroups_of_mem _ hgroups.nodup hg]
      have hof := hgroups.rollout g hg
      obtain ⟨index, plan, -, -, rfl⟩ := n.mem_groupsFrom hg
      exact .created (by rw [hof, hid]; exact hnew) rfl rfl rfl rfl rfl
    · rw [withProgress, group?_withGroups_of_notMem _ fun g hg heq => hx ⟨g, hg, heq⟩]
      exact .same _
  | order | finish | giveUp | stamp => exact .same _
  | @resume r r' now _ hr happly =>
    have hn := h.nodup_groupsOf r.id
    have hpaused : r.state = .paused := by
      have hleads := (Rollout.apply?_eq_some happly).1
      generalize r.state = source at hleads ⊢
      generalize r'.state = dest at hleads
      cases hleads
      rfl
    by_cases hx : ∃ g ∈ Operator.acknowledged (s.groupsOf r.id), g.id = id
    · obtain ⟨x, hx, rfl⟩ := hx
      rw [withProgress, group?_withGroups_of_mem _ (nodup_acknowledged hn) hx]
      obtain ⟨g, hg, hpausing, rfl⟩ := mem_acknowledged.1 hx
      obtain ⟨hstored, hof⟩ := h.mem_groupsOf.1 hg
      change GroupChange allowed s (s.group? g.id) _
      rw [hstored]
      exact .turned (hof ▸ hr) (hpaused ▸ .acknowledged hpausing)
    · rw [withProgress, group?_withGroups_of_notMem _ fun g hg heq => hx ⟨g, hg, heq⟩]
      exact .same _
  | @stop r r' now _ hr happly =>
    have hid := Rollout.id_of_apply happly
    have hstopped : Sound (s.withRollout r') :=
      h.withRow hr hid ((h.agrees hr).order rfl happly)
    refine .of_countsOn (hstopped.countsOn_cancelled (nodup_openActions h.toKeyed r.id)
      (stored_of_mem_openActions h.toKeyed) (fun a ha => ?_) now id)
    exact ActionStatus.isTerminal_of_isOpen (isOpen_of_mem_openActions ha)
  | @trigger r g g' now hmay hr hrun hg hend =>
    have hof := (h.mem_groupsOf.1 hg).2
    rw [group?_withGroup]
    exact .turn h.toKeyed hr hg (hrun ▸ .triggered (hof ▸ hmay) hend) id
  | @settle r g g' now hr hrun hg hstaffed _ hend =>
    rw [group?_withGroup]
    exact .turn h.toKeyed hr hg (hrun ▸ .judged hstaffed hend) id
  | @fail r r' g g' now reason _ hr hg hstaffed _ hend happly =>
    have hrun := Rollout.running_of_groupFailed happly
    rw [group?_withProgress_singleton]
    exact .turn h.toKeyed hr hg (hrun ▸ .judged hstaffed hend) id
  | @join r last quota added hmay hr hrun hlast hopen =>
    rw [group?_withProgress_singleton]
    exact .turn h.toKeyed hr (List.mem_of_getLast? hlast) (hrun ▸ .joined hmay hopen) id
  | report _ ha _ hopen => exact .of_countsOn (h.countsOn_withStatus ha hopen _ _ id)
  | @dropAction a r grace now _ ha hr hdeleting _ =>
    obtain ⟨g, hg, hof, -⟩ := h.action_group ha
    have hid := (h.group_key hg).1
    rw [dropped_eq hg, group?_withGroup, group?_withoutAction]
    exact .put (hid ▸ hg) (.uncounted (hof ▸ hr) hdeleting _) rfl id
  | @dropGroup g r grace now _ hg hr hdeleting _ =>
    rw [group?_withoutGroup]
    split
    · rename_i heq
      rw [heq, hg]
      exact .removed hr hdeleting
    · exact .same _
  | purge _ _ _ _ hs =>
    rw [group?, group?, hs.groups]
    exact .same _

theorem Step.group (h : Sound s) (hs : Step allowed s s') (id : GroupId) :
    GroupChange allowed s (s.group? id) (s'.group? id) := by
  rcases hs with hm | ⟨hallowed, hi⟩
  · exact hm.group h id
  · cases hi with
    | @issue r g targets now hr hrun hg hmay htargets =>
      rw [issued, group?_withGroup, group?_withActions]
      exact .turn h.toKeyed hr hg (hrun ▸ .begun hallowed (hmay.imp_right And.left)) id

/-! ## Actions -/

/-- What a step makes of the row of an action. -/
inductive ActionChange (allowed : Intent → Prop) (s s' : Store) :
    Option Action → Option Action → Prop
  | same (row : Option Action) : ActionChange allowed s s' row row
  /-- The action is new. -/
  | issued {r : Rollout} {g : RolloutGroup} {a : Action} (hmay : allowed .issue)
      (hr : s.rollout? a.rolloutId = some r) (hrun : r.state = .running)
      (hg : s.group? a.groupId = some g) (hopen : g.state.isDone = false) :
      ActionChange allowed s s' none (some a)
  /-- Its device reports. -/
  | reported {a : Action} (hmay : allowed (.report a.id)) (hopen : a.status.isTerminal = false)
      (status : ActionStatus) (now : Nat) : ActionChange allowed s s' (some a)
        (some { a with status := status, lastStatusAt := now })
  /-- Its rollout is stopped. -/
  | canceled {r r' : Rollout} {a : Action} (hmay : allowed (.order r .stop))
      (hr : s.rollout? a.rolloutId = some r) (hr' : s'.rollout? a.rolloutId = some r')
      (hstops : r.state.Leads .stop r'.state) (hopen : a.status.isOpen = true) (now : Nat) :
      ActionChange allowed s s' (some a)
        (some { a with status := .canceling, lastStatusAt := now })
  /-- It is removed. -/
  | removed {r : Rollout} {a : Action} {grace now : Nat} (hmay : allowed (.reclaim grace now))
      (hr : s.rollout? a.rolloutId = some r) (hdeleting : r.state = .deleting)
      (hidle : Cleanup.isInFlight grace now a = false) :
      ActionChange allowed s s' (some a) none

lemma action?_cancelled_of_notMem {actions : List Action} {id : ActionId}
    (hnot : ∀ a ∈ actions, a.id ≠ id) (now : Nat) :
    (s.cancelled actions now).action? id = s.action? id := by
  induction actions generalizing s with
  | nil => rfl
  | cons a actions ih =>
    have hrest := ih (s := s.withStatus a .canceling now) fun x hx =>
      hnot x (List.mem_cons_of_mem _ hx)
    rw [cancelled, List.foldl_cons, ← cancelled, hrest, action?_withStatus,
      if_neg (Ne.symm (hnot a List.mem_cons_self))]

lemma action?_cancelled_of_mem {actions : List Action} {a : Action}
    (hn : (actions.map (·.id)).Nodup) (ha : a ∈ actions) (now : Nat) :
    (s.cancelled actions now).action? a.id =
      some { a with status := .canceling, lastStatusAt := now } := by
  induction actions generalizing s with
  | nil => simp at ha
  | cons x actions ih =>
    obtain ⟨hne, htail⟩ := nodup_keys_cons hn
    rcases List.mem_cons.1 ha with rfl | ha
    · rw [cancelled, List.foldl_cons, ← cancelled, action?_cancelled_of_notMem hne,
        action?_withStatus, if_pos rfl]
    · exact ih htail ha

/-- **What a move makes of the row of an action.** -/
theorem Move.action (h : Sound s) (hm : Move allowed s s') (id : ActionId) :
    ActionChange allowed s s' (s.action? id) (s'.action? id) := by
  cases hm with
  | beside hs | purge _ _ _ _ hs =>
    rw [action?, action?, hs.actions]
    exact .same _
  | create | resume | fail | join =>
    rw [action?_withProgress]
    exact .same _
  | order | finish | giveUp | stamp | trigger | settle | dropGroup => exact .same _
  | @stop r r' now hmay hr happly =>
    have hobeys : Rollout.Obeys .stop r r' := .of_apply (by simp) happly
    have hn := nodup_openActions h.toKeyed r.id
    by_cases hx : ∃ a ∈ openActions s r.id, a.id = id
    · obtain ⟨a, ha, rfl⟩ := hx
      obtain ⟨hstored, hof⟩ := h.mem_rolloutActionsOf.1 (List.mem_of_mem_filter ha)
      have hafter : ((s.withRollout r').cancelled (openActions s r.id) now).rollout? r.id =
          some r' := by
        rw [rollout?_cancelled, rollout?_withRollout, if_pos hobeys.id.symm]
      rw [action?_cancelled_of_mem hn ha, hstored]
      exact .canceled hmay (hof ▸ hr) (hof ▸ hafter) hobeys.leads (isOpen_of_mem_openActions ha) now
    · rw [action?_cancelled_of_notMem fun a ha heq => hx ⟨a, ha, heq⟩]
      exact .same _
  | @report a status now hmay ha hstatus hopen =>
    rw [action?_withStatus]
    split
    · rename_i heq
      rw [heq, ha]
      exact .reported hmay hopen status now
    · exact .same _
  | @dropAction a r grace now hmay ha hr hdeleting hidle =>
    rw [action?_dropped]
    split
    · rename_i heq
      rw [heq, ha]
      exact .removed hmay hr hdeleting hidle
    · exact .same _

theorem Step.action (h : Sound s) (hs : Step allowed s s') (id : ActionId) :
    ActionChange allowed s s' (s.action? id) (s'.action? id) := by
  rcases hs with hm | ⟨hmay, hi⟩
  · exact hm.action h id
  · cases hi with
    | @issue r g targets now hr hrun hg hturn htargets =>
      have hd := (h.agrees hr).deleted_eq_false_of_running hrun
      have hstored := (h.mem_groupsOf.1 hg).1
      have hn := nodup_newActions r now (h.isGroupId hstored)
        ((h.nodup_targets hr hd hg).sublist htargets)
      have hopen : g.state.isDone = false := by
        rcases hturn with hs | ⟨hs, -⟩ <;> rw [hs] <;> rfl
      rcases hrow : s.action? id with _ | a
      · rcases hnew : (s.issued g (targets.map (newAction r g now)) now).action? id with _ | b
        · exact .same none
        -- an action that was not there is one of those that were missing
        rcases action?_issued_cases hn hnew with hold | hb
        · exact absurd (hrow.symm.trans hold) (by simp)
        · obtain ⟨t, -, rfl⟩ := List.mem_map.1 (mem_missing.1 hb).1
          exact .issued hmay hr hrun hstored hopen
      · rw [action?_issued_of_some hrow]
        exact .same _

end Store

end StagedRollout
