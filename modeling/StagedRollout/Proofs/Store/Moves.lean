/-
# Moves

What a single write of an operation can do to rollouts, groups and actions, said once and for all:
one rule for each kind of write, with everything that the operation has made sure of before it.
Facts that hold in every run are shown rule by rule; that the rules keep a store sound is
`Sound.step`.

Where it matters who writes, a rule holds for the allowed intents only.  So the writes of operators,
schedulers, devices and cleanup can be told apart, and runs under one fixed quota from others.
-/
import StagedRollout.Proofs.Progression.Issued
import StagedRollout.Proofs.Rollout.Creation
import StagedRollout.Scheduler.Cleanup

namespace StagedRollout.Store

open RolloutGroup Progression Transaction

/-- What a write is meant to do, where not everybody may. -/
inductive Intent where
  /-- A rollout is created under a quota, to wait for approval or not. -/
  | create (n : NewRollout) (quota : Quota) (approval : Bool)
  /-- A rollout follows a command. -/
  | order (r : Rollout) (c : Command)
  /-- Devices join a running rollout under a quota. -/
  | join (quota : Quota)
  /-- The running group of a rollout is ended, whatever its counters say. -/
  | trigger (id : RolloutId)
  /-- Members of a group get their actions. -/
  | issue
  /-- A device reports on an action. -/
  | report (id : ActionId)
  /-- An action or a group of a deleted rollout is removed. -/
  | reclaim (grace now : Nat)

/-- The quota of an intent is allowed. -/
def Intent.Within (allowed : Quota → Prop) : Intent → Prop
  | create _ quota _ | join quota => allowed quota
  | _ => True

/-- What one write of an operation does to a store, unless it issues actions. -/
inductive Move (allowed : Intent → Prop) : Store → Store → Prop
  /-- Devices, saved filters and leases change. -/
  | beside {s s' : Store} (h : SameProgress s s') : Move allowed s s'
  /-- An operator creates a rollout. -/
  | create {s : Store} {n : NewRollout} {quota : Quota} {targets : OrderedSet}
      {plans : List (List TargetId)} {approval : Bool} {now : Nat} {r : Rollout}
      (hmay : allowed (.create n quota approval)) (hcheck : n.check = .ok ())
      (hplans : partition targets n.groups quota = .ok plans) (hnew : s.rollout? n.name = none)
      (happly : Rollout.apply? (n.rollout (n.groupsFrom 0 plans) targets.size now)
        (.created approval) now = some r) : Move allowed s (s.withProgress r (n.groupsFrom 0 plans))
  /-- A rollout follows a command, and nothing else happens. -/
  | order {s : Store} {r r' : Rollout} {c : Command} {now : Nat} (hmay : allowed (.order r c))
      (hr : s.rollout? r.id = some r) (hc : c.isPlain = true)
      (happly : r.apply? c now = some r') : Move allowed s (s.withRollout r')
  /-- A paused rollout goes on, and its failed groups are acknowledged. -/
  | resume {s : Store} {r r' : Rollout} {now : Nat} (hmay : allowed (.order r .resume))
      (hr : s.rollout? r.id = some r) (happly : r.apply? .resume now = some r') :
      Move allowed s (s.withProgress r' (Operator.acknowledged (s.groupsOf r.id)))
  /-- A rollout is stopped, and devices are asked to cancel its open actions. -/
  | stop {s : Store} {r r' : Rollout} {now : Nat} (hmay : allowed (.order r .stop))
      (hr : s.rollout? r.id = some r) (happly : r.apply? .stop now = some r') :
      Move allowed s ((s.withRollout r').cancelled (openActions s r.id) now)
  /-- An operator ends the running group. -/
  | trigger {s : Store} {r : Rollout} {g g' : RolloutGroup} {now : Nat}
      (hmay : allowed (.trigger r.id)) (hr : s.rollout? r.id = some r) (hrun : r.state = .running)
      (hg : g ∈ s.groupsOf r.id) (hend : g.trigger? now = some g') : Move allowed s (s.withGroup g')
  /-- A running group is judged, all members of it having an action, and ends well. -/
  | settle {s : Store} {r : Rollout} {g g' : RolloutGroup} {now : Nat}
      (hr : s.rollout? r.id = some r) (hrun : r.state = .running) (hg : g ∈ s.groupsOf r.id)
      (hstaffed : IsStaffed g) (hverdict : g.verdict ≠ .failed)
      (hend : g.settle? g.verdict now = some g') : Move allowed s (s.withGroup g')
  /-- A running group is judged and fails, and its rollout with it. -/
  | fail {s : Store} {r r' : Rollout} {g g' : RolloutGroup} {now : Nat} {reason : String}
      (hmay : allowed (.order r (.groupFailed g.errorAction))) (hr : s.rollout? r.id = some r)
      (hg : g ∈ s.groupsOf r.id) (hstaffed : IsStaffed g)
      (hverdict : g.verdict = .failed) (hend : g.settle? g.verdict now = some g')
      (happly : r.apply? (.groupFailed g.errorAction) now = some r') :
      Move allowed s (s.withProgress { r' with lastError := some reason } [g'])
  /-- A rollout finishes behind its last group. -/
  | finish {s : Store} {r r' : Rollout} {now : Nat} (hmay : allowed (.order r .allGroupsFinished))
      (hr : s.rollout? r.id = some r) (hall : ∀ g ∈ s.groupsOf r.id, g.releasesSuccessor = true)
      (happly : r.apply? .allGroupsFinished now = some r') : Move allowed s (s.withRollout r')
  /-- A scheduler gives a rollout up. -/
  | giveUp {s : Store} {r r' : Rollout} {now : Nat} {reason : String}
      (hmay : allowed (.order r .retriesExhausted)) (hr : s.rollout? r.id = some r)
      (happly : r.apply? .retriesExhausted now = some r') :
      Move allowed s (s.withRollout { r' with lastError := some reason })
  /-- A running rollout was resolved again. -/
  | stamp {s : Store} {r : Rollout} {now : Nat} (hr : s.rollout? r.id = some r)
      (hrun : r.state = .running) : Move allowed s (s.withRollout { r with lastResolvedAt := now })
  /-- Devices that are new to a running rollout join its last group. -/
  | join {s : Store} {r : Rollout} {last : RolloutGroup} {quota : Quota} {added : List TargetId}
      (hmay : allowed (.join quota)) (hr : s.rollout? r.id = some r) (hrun : r.state = .running)
      (hlast : (s.groupsOf r.id).getLast? = some last) (hopen : last.state.isDone = false)
      (hnodup : added.Nodup) (hfresh : ∀ t ∈ added, ∀ g ∈ s.groupsOf r.id, t ∉ g.targets)
      (hgrowth : Partition.checkGrowth last.targetCount r.totalTargets added.length quota = .ok ()) :
      Move allowed s (s.withProgress { r with totalTargets := r.totalTargets + added.length }
        [last.joined added])
  /-- A device reports on an action that has not ended. -/
  | report {s : Store} {a : Action} {status : ActionStatus} {now : Nat}
      (hmay : allowed (.report a.id)) (ha : s.action? a.id = some a) (hstatus : a.status ≠ status)
      (hopen : a.status.isTerminal = false) : Move allowed s (s.withStatus a status now)
  /-- Cleanup removes an action of a deleted rollout. -/
  | dropAction {s : Store} {a : Action} {r : Rollout} {grace now : Nat}
      (hmay : allowed (.reclaim grace now)) (ha : s.action? a.id = some a)
      (hr : s.rollout? a.rolloutId = some r) (hdeleting : r.state = .deleting)
      (hidle : Cleanup.isInFlight grace now a = false) : Move allowed s (s.dropped a)
  /-- Cleanup removes a group of a deleted rollout that has no actions left. -/
  | dropGroup {s : Store} {g : RolloutGroup} {r : Rollout} {grace now : Nat}
      (hmay : allowed (.reclaim grace now)) (hg : s.group? g.id = some g)
      (hr : s.rollout? g.rolloutId = some r) (hdeleting : r.state = .deleting)
      (hnone : ∀ key a, s.action? key = some a → a.groupId ≠ g.id) :
      Move allowed s (s.withoutGroup g.id)
  /-- A deleted rollout is gone with the last of its groups. -/
  | purge {s s' : Store} {r r' : Rollout} {now : Nat} (hmay : allowed (.order r .purged))
      (hr : s.rollout? r.id = some r) (hnone : s.groupsOf r.id = [])
      (happly : r.apply? .purged now = some r')
      (hs : SameProgress (s.withRollout { r' with groupIds := [] }) s') : Move allowed s s'

/-- A group of a running rollout gets actions for members that have none. -/
inductive Issue : Store → Store → Prop
  | issue {s : Store} {r : Rollout} {g : RolloutGroup} {targets : List TargetId} {now : Nat}
      (hr : s.rollout? r.id = some r) (hrun : r.state = .running) (hg : g ∈ s.groupsOf r.id)
      (hmay : MayIssue (s.groupsOf r.id) g) (htargets : targets.Sublist g.targets) :
      Issue s (s.issued g (targets.map (newAction r g now)) now)

/-- What one write of an operation does to a store. -/
def Step (allowed : Intent → Prop) (s s' : Store) : Prop :=
  Move allowed s s' ∨ allowed .issue ∧ Issue s s'

variable {allowed : Intent → Prop} {s s' : Store}

/-! ## New actions -/

lemma nodup_newActions (r : Rollout) {g : RolloutGroup} {targets : List TargetId} (now : Nat)
    (hg : IsGroupId g.id) (hn : targets.Nodup) :
    ((targets.map (newAction r g now)).map (·.id)).Nodup := by
  rw [List.map_map]
  exact hn.map fun t t' h => (actionId_injective hg hg h).2

lemma issuedTo_newAction {r : Rollout} {g : RolloutGroup} {now : Nat} {t : TargetId}
    (hrollout : g.rolloutId = r.id) (ht : t ∈ g.targets) : IssuedTo g (newAction r g now t) :=
  ⟨rfl, rfl, hrollout.symm, ht⟩

/-- The members of a group are all different. -/
lemma Sound.nodup_targets {r : Rollout} {g : RolloutGroup} (h : Sound s)
    (hr : s.rollout? r.id = some r) (hd : r.deleted = false) (hg : g ∈ s.groupsOf r.id) :
    g.targets.Nodup :=
  (List.nodup_flatMap.1 ((h.agrees hr).roster hd).disjoint).1 g hg

/-! ## Moves keep a store sound -/

/-- A group that ends without failing is finished. -/
lemma settle?_eq_some {g g' : RolloutGroup} {verdict : Verdict} {now : Nat}
    (hverdict : verdict ≠ .failed) (h : g.settle? verdict now = some g') :
    g.state = .running ∧ ∃ outcome,
      g' = { g with state := .finished, outcome := some outcome, finishedAt := some now } := by
  rw [settle?] at h
  split at h
  · rename_i hrun
    refine ⟨hrun, ?_⟩
    cases verdict with
    | pending => simp [settledBy] at h
    | failed => exact absurd rfl hverdict
    | succeeded => exact ⟨.success, (Option.some.inj h).symm⟩
    | degraded => exact ⟨.degraded, (Option.some.inj h).symm⟩
  · simp at h

lemma settle?_failed {g g' : RolloutGroup} {now : Nat} (h : g.settle? .failed now = some g') :
    g.state = .running ∧
      g' = { g with state := .error, outcome := none, finishedAt := some now } := by
  rw [settle?] at h
  split at h
  · rename_i hrun
    exact ⟨hrun, (Option.some.inj h).symm⟩
  · simp at h

lemma deleted_of_purged {r r' : Rollout} {groups : List RolloutGroup} {now : Nat}
    (h : r'.AgreesWith groups) (happly : r.apply? .purged now = some r') : r'.deleted = true := by
  refine h.deleted_iff.2 (.inr ?_)
  have hleads := (Rollout.apply?_eq_some happly).1
  generalize r.state = source at hleads
  generalize r'.state = dest at hleads ⊢
  cases hleads
  rfl

lemma deleted_of_deleting {r : Rollout} (h : Sound s) {id : RolloutId}
    (hr : s.rollout? id = some r) (hdeleting : r.state = .deleting) : r.deleted = true :=
  (h.agrees hr).deleted_iff.2 (.inl hdeleting)

/-- **Every move keeps a store sound.** -/
theorem Sound.move (h : Sound s) (hm : Move allowed s s') : Sound s' := by
  cases hm with
  | beside hs => exact h.congr hs
  | create _ hcheck hplans hnew happly =>
    have hid := Rollout.id_of_apply happly
    have hfair := partition_fair hplans
    exact h.withNew (hid ▸ hnew) (hid ▸ NewRollout.isName_of_check hcheck)
      (NewRollout.newGroups hfair.count_le hid) (NewRollout.agreesWith hfair happly)
  | order _ hr hc happly =>
    have hspares := Command.sparesGroups_of_isPlain hc
    exact h.withRow hr (Rollout.id_of_apply happly) ((h.agrees hr).order hspares happly)
  | resume _ hr happly => exact h.resumed hr happly
  | @stop r r' now _ hr happly =>
    have hstopped := h.withRow hr (Rollout.id_of_apply happly) ((h.agrees hr).order rfl happly)
    exact hstopped.cancelled (nodup_openActions h.toKeyed r.id)
      (stored_of_mem_openActions h.toKeyed)
  | @trigger r g g' now _ hr hrun hg hend =>
    rw [trigger?] at hend
    split at hend
    · rename_i hgrun
      obtain rfl := Option.some.inj hend
      exact h.ended hr hrun hg hgrun ⟨rfl, rfl, rfl, rfl⟩ rfl rfl rfl
    · simp at hend
  | @settle r g g' now hr hrun hg _ hverdict hend =>
    obtain ⟨hgrun, outcome, rfl⟩ := settle?_eq_some hverdict hend
    exact h.ended hr hrun hg hgrun ⟨rfl, rfl, rfl, rfl⟩ rfl rfl rfl
  | @fail r r' g g' now reason _ hr hg _ hverdict hend happly =>
    rw [hverdict] at hend
    obtain ⟨hgrun, rfl⟩ := settle?_failed hend
    have hroster : SameRoster g { g with
        state := .error, outcome := none, finishedAt := some now } := ⟨rfl, rfl, rfl, rfl⟩
    exact h.failed hr happly hg hgrun hroster rfl rfl rfl rfl rfl reason
  | finish _ hr hall happly =>
    exact h.withRow hr (Rollout.id_of_apply happly) ((h.agrees hr).finish hall happly)
  | @giveUp r r' now reason _ hr happly =>
    have hid : r'.id = r.id := Rollout.id_of_apply happly
    have hrow : ({ r' with lastError := some reason } : Rollout).id = r.id := hid
    exact h.withRow hr hrow ((h.agrees hr).giveUp happly reason)
  | stamp hr hrun => exact h.withRow hr rfl ((h.agrees hr).congr rfl rfl rfl rfl rfl)
  | join _ hr _ hlast _ hnodup hfresh _ => exact h.joined hr hlast hnodup hfresh
  | report _ ha _ _ => exact h.withStatus ha _ _
  | dropAction _ ha _ _ _ => exact h.dropped ha
  | dropGroup _ hg hr hdeleting hnone =>
    exact h.withoutGroup hg hr (deleted_of_deleting h hr hdeleting) hnone
  | @purge _ r r' now _ hr hnone happly hs =>
    have hagrees := (h.agrees hr).order rfl happly
    have hid : r'.id = r.id := Rollout.id_of_apply happly
    have hrow : ({ r' with groupIds := [] } : Rollout).id = r.id := hid
    have hgone : r'.deleted = true := deleted_of_purged hagrees happly
    -- a deleted rollout need not agree with its groups in anything else
    refine (h.withRow hr hrow ⟨hagrees.deleted_iff, ?_, ?_, ?_⟩).congr hs <;>
      · intro hd
        change r'.deleted = false at hd
        simp [hgone] at hd

/-- **An issue keeps a store sound.** -/
theorem Sound.issue (h : Sound s) (hi : Issue s s') : Sound s' := by
  cases hi with
  | @issue r g targets now hr hrun hg hmay htargets =>
    obtain ⟨hstored, hrid⟩ := h.mem_groupsOf.1 hg
    have hd := (h.agrees hr).deleted_eq_false_of_running hrun
    have hn := (h.nodup_targets hr hd hg).sublist htargets
    refine h.issued hr hrun hg hmay (nodup_newActions r now (h.isGroupId hstored) hn) fun a ha => ?_
    obtain ⟨t, ht, rfl⟩ := List.mem_map.1 ha
    exact issuedTo_newAction hrid (htargets.subset ht)

theorem Sound.step (h : Sound s) (hs : Step allowed s s') : Sound s' :=
  hs.elim h.move fun hi => h.issue hi.2

end StagedRollout.Store
