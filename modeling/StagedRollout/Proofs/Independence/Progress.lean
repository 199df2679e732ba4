/-
# Work on one rollout

What schedulers, operators and devices do for a rollout is local to it: driving it forward,
resolving its filter again, commands on it and reports on its actions.  The rows that are written
are the ones that were read in its region, or are made from them.
-/
import StagedRollout.Mailbox
import StagedRollout.Proofs.Independence.Local
import StagedRollout.Proofs.Operator.Commands
import StagedRollout.Proofs.Scheduler.Live

namespace StagedRollout

open Store

variable {watched : Region} {env : Surroundings} {a : RolloutId} {r r' : Rollout}
  {g g' : RolloutGroup} {now : Nat}

/-! ## Rows that are made from others -/

lemma Rollout.IsOf.apply {c : Command} (h : r.IsOf a) (happly : r.apply c now = .ok r') :
    r'.IsOf a := 
  ⟨(Rollout.id_of_apply (Rollout.apply_eq_ok happly)).trans h.1, h.2⟩

namespace RolloutGroup.IsOf

lemma settle? {verdict : Verdict} (h : g.IsOf a) (hend : g.settle? verdict now = some g') :
    g'.IsOf a := by
  unfold RolloutGroup.settle? at hend
  split at hend
  · obtain ⟨p, -, rfl⟩ := Option.map_eq_some_iff.1 hend
    exact h
  · cases hend

lemma trigger? (h : g.IsOf a) (now : Nat) : ((g.trigger? now).getD g).IsOf a := by
  unfold RolloutGroup.trigger?
  split <;> exact h

lemma acknowledged {groups : List RolloutGroup} (h : ∀ g ∈ groups, g.IsOf a) :
    ∀ g ∈ Operator.acknowledged groups, g.IsOf a := by
  intro g hg
  obtain ⟨old, hold, -, rfl⟩ := Store.mem_acknowledged.1 hg
  exact h old hold

lemma newAction (h : g.IsOf a) (hr : r.IsOf a) (t : TargetId) :
    (Progression.newAction r g now t).IsOf a := ⟨h.1.actionId t, h.1, hr.1⟩

end RolloutGroup.IsOf

/-! ## Looking -/

lemma Operation.Local.requireRollout :
    (Progression.requireRollout a).Local watched env a (·.IsOf a) := by
  refine .bind (.mapError (.read (P := fun found => ∀ r, found = some r → r.IsOf a) ?_ ?_))
    fun found hfound => ?_
  · intro s t hs
    simp only [Table.read, hs.rollouts a (.inl rfl)]
  · intro s found htidy hread r hr
    subst hr
    exact htidy.row r (Table.intact?_eq_some_iff.1 (Table.read_eq_some_iff.1 hread))
  · cases found with
    | none => exact .throw _
    | some r => exact .pure (hfound r rfl)

lemma Operation.Local.listGroups (ha : ':' ∉ a.toList) :
    (Operation.mapError RolloutError.persistence
      (Operation.read fun s => s.listGroups a)).Local watched env a
        fun groups => ∀ g ∈ groups, g.IsOf a :=
  .mapError (.read (fun _ _ hs => hs.listGroups ha) fun _ _ htidy hlist _ hg =>
    htidy.isOf_of_mem_listGroups ha hlist hg)

/-! ## Advancing and resolving -/

variable {fence : Option Fence}

section

variable (henv : env.Tame watched) (hfence : (Region.own watched a).Covers fence)
include henv

namespace Progression

omit hfence in
lemma notify_local {actions : List Action} (hactions : ∀ x ∈ actions, x.IsOf a) :
    (notify actions).Local watched env a fun _ => True := by
  induction actions with
  | nil => exact .pure trivial
  | cons x rest ih =>
    exact .bind (.dispatch henv (hactions x List.mem_cons_self).2.2) fun _ _ =>
      ih fun y hy => hactions y (List.mem_cons_of_mem _ hy)

include hfence

lemma saveRollout_local (hr : r.IsOf a) :
    (saveRollout fence r).Local watched env a fun _ => True :=
  .mapError (.commit henv.still hfence (.putRollout hr))

lemma issue_local (hr : r.IsOf a) (hg : g.IsOf a) (targets : List TargetId) :
    (issue fence r g targets now).Local watched env a fun issued => issued.group.IsOf a := by
  have hactions : ∀ x ∈ targets.map (newAction r g now), x.IsOf a := by
    intro x hx
    obtain ⟨t, -, rfl⟩ := List.mem_map.1 hx
    exact hg.newAction hr t
  refine .bind (.mapError (.commit henv.still hfence (.issueActions hg.1 hactions)))
    fun issued hissued => ?_
  exact .bind (.lift (notify_local henv hissued.2.2)) fun _ _ => .pure hissued.2.1

lemma startGroup_local (hr : r.IsOf a) (hg : g.IsOf a) :
    (startGroup fence r g now).Local watched env a (·.IsOf a) := by
  unfold startGroup
  cases g.state with
  | scheduled | ready =>
    exact .bind (issue_local henv hfence hr hg _) fun issued hissued => .pure hissued
  | running => exact .pure hg
  | finished | error => exact .throw _

/-- A group that is running where the walk comes to it is one of the rollout's. -/
lemma enter_local {previous : Option RolloutGroup} (hr : r.IsOf a) (hg : g.IsOf a) :
    (enter fence now previous r g).Local watched env a fun entry =>
      match entry with
      | .running g' _ => g'.IsOf a
      | _ => True := by
  unfold enter
  cases g.state with
  | finished => exact .pure trivial
  | error =>
    dsimp only
    split <;> exact .pure trivial
  | scheduled | ready =>
    dsimp only
    split
    · exact .bind (startGroup_local henv hfence hr hg) fun g' hg' => .pure hg'
    · exact .pure trivial
  | running =>
    dsimp only
    split
    · exact .bind (issue_local henv hfence hr hg _) fun issued hissued => .pure hissued
    · exact .pure hg

lemma walk_local {groups : List RolloutGroup} {previous : Option RolloutGroup} {adv : Advance}
    (hr : r.IsOf a) (hgroups : ∀ g ∈ groups, g.IsOf a) :
    (walk fence now previous groups r adv).Local watched env a fun _ => True := by
  induction groups generalizing previous adv with
  | nil =>
    refine .bind (.ofExcept fun r' happly => hr.apply happly) fun r' hr' => ?_
    exact .bind (saveRollout_local henv hfence hr') fun _ _ => .pure trivial
  | cons g rest ih =>
    obtain ⟨hg, hrest⟩ := List.forall_mem_cons.1 hgroups
    refine .bind (enter_local henv hfence hr hg) fun entry hentry => ?_
    cases entry with
    | passed => exact ih hrest
    | blocked => exact .pure trivial
    | running g started =>
      dsimp only
      cases hend : g.settle? g.verdict now with
      | none => exact .pure trivial
      | some settled =>
        have hsettled := RolloutGroup.IsOf.settle? hentry hend
        dsimp only
        split
        · refine .bind (.ofExcept fun r' happly => hr.apply happly) fun r' hr' => ?_
          refine .bind (.mapError (.commit henv.still hfence (.putRolloutWithGroups hr' ?_)))
            fun _ _ => .pure trivial
          exact List.forall_mem_singleton.2 hsettled
        · exact .bind (.mapError (.commit henv.still hfence (.putGroup hsettled)))
            fun _ _ => ih hrest

lemma begin?_local (hr : r.IsOf a) :
    (begin? fence now r).Local watched env a fun found => ∀ r, found = some r → r.IsOf a := by
  unfold begin?
  split
  · split
    · refine .bind (.ofExcept fun r' happly => hr.apply happly) fun r' hr' => ?_
      exact .bind (saveRollout_local henv hfence hr') fun _ _ =>
        .pure fun _ heq => Option.some.inj heq ▸ hr'
    · exact .pure fun _ heq => nomatch heq
  · exact .pure fun _ heq => Option.some.inj heq ▸ hr

lemma takeUp_local (hr : r.IsOf a) : (takeUp fence now r).Local watched env a (·.IsOf a) := by
  unfold takeUp
  split
  · refine .bind (.ofExcept fun r' happly => hr.apply happly) fun r' hr' => ?_
    exact .bind (saveRollout_local henv hfence hr') fun _ _ => .pure hr'
  · exact .pure hr

/-- **Driving a rollout forward is local to it.** -/
theorem advance_local : (advance fence a now).Local watched env a fun _ => True := by
  refine .bind .requireRollout fun r hr => ?_
  dsimp only
  split
  · exact .pure trivial
  refine .bind (begin?_local henv hfence hr) fun found hfound => ?_
  cases found with
  | none => exact .pure trivial
  | some r =>
    refine .bind (takeUp_local henv hfence (hfound r rfl)) fun r hr => ?_
    split
    · rw [hr.1]
      exact .bind (.listGroups hr.2) fun groups hgroups =>
        .bind (walk_local henv hfence hr hgroups) fun p _ => .pure trivial
    · exact .pure trivial

end Progression

namespace Live

include hfence

lemma extend_local (hg : g.IsOf a) (targets : List TargetId) :
    (extend fence g targets now).Local watched env a (·.IsOf a) := by
  refine .bind (.mapError (.commit henv.still hfence (.appendTargets hg.1 targets))) fun p hp => ?_
  dsimp only
  split
  · exact .bind (Progression.issue_local henv hfence hp.1 hp.2.2 _) fun _ _ => .pure hp.1
  · exact .pure hp.1

/-- **Resolving a rollout's filter again is local to it**, if that looks at nothing but what is
registered and what is watched. -/
theorem refresh_local {live : Live}
    (hresolver : ∀ filter, (live.resolver filter).Local watched env a fun _ => True) :
    (live.refresh fence a now).Local watched env a fun _ => True := by
  refine .bind .requireRollout fun r hr => ?_
  split
  · refine .bind (.listGroups hr.2) fun groups hgroups => ?_
    refine .bind (hresolver r.targetFilter) fun resolved _ => ?_
    dsimp only
    cases hlast : growing? live.quota r groups (fresh groups resolved).length with
    | none => exact .bind (Progression.saveRollout_local henv hfence hr) fun _ _ => .pure trivial
    | some last =>
      have hof := hgroups last (List.mem_of_getLast? (growing?_eq_some hlast).1)
      refine .bind (extend_local henv hfence hof _) fun r hr => ?_
      exact .bind (Progression.saveRollout_local henv hfence hr) fun _ _ => .pure trivial
  · exact .pure trivial

end Live

end

/-! ## Commands and reports -/

/-- The groups of a new rollout are its own. -/
lemma NewRollout.isOf_of_mem_groupsFrom {n : NewRollout} (hname : isName n.name = true)
    (index : Nat) (plans : List (List TargetId)) :
    ∀ g ∈ n.groupsFrom index plans, g.IsOf n.name := by
  induction plans generalizing index with
  | nil => exact fun _ hg => nomatch hg
  | cons plan rest ih =>
    refine List.forall_mem_cons.2 ⟨⟨?_, rfl⟩, ih _⟩
    exact .groupId (colon_notMem_of_isName hname) index

namespace Operator

variable {m : Operator} (henv : env.Tame watched) (hfence : (Region.own watched a).Covers m.fence)
include henv hfence

/-- Work on a rollout that is local to it is local to it while holding its lease. -/
lemma withLease_local {α : Type} {work : Fence → Rollout → Operation RolloutError α}
    (hwork : ∀ fence r, (Region.own watched a).Covers (some fence) → r.IsOf a →
      (work fence r).Local watched env a fun _ => True) :
    (m.withLease a work).Local watched env a fun _ => True := by
  refine .bind (.now henv.still) fun now _ => ?_
  refine .bind (.mapError (.commit henv.still hfence (.acquireLease _ _))) fun grant _ => ?_
  cases grant with
  | held l => exact .throw _
  | granted l =>
    refine .bind (.attempt (.bind (Q := fun _ => True) .requireRollout fun r hr => ?_))
      fun result _ => ?_
    · exact hwork _ r (Region.covers_own watched a _ _) hr
    · exact .bind (.attempt (.commit henv.still hfence (.releaseLease _ _))) fun _ _ =>
        .ofExcept fun _ _ => trivial

theorem command_local (c : Command) : (m.command a c).Local watched env a fun _ => True := by
  refine withLease_local henv hfence fun fence r hcovers hr => ?_
  refine .bind (.nowSeconds henv.still) fun now _ => ?_
  refine .bind (.ofExcept fun r' happly => hr.apply happly) fun r' hr' => ?_
  exact .bind (.mapError (.commit henv.still hcovers (.putRollout hr'))) fun _ _ => .pure trivial

theorem resume_local : (m.resume a).Local watched env a fun _ => True := by
  refine withLease_local henv hfence fun fence r hcovers hr => ?_
  refine .bind (.nowSeconds henv.still) fun now _ => ?_
  refine .bind (.ofExcept fun r' happly => hr.apply happly) fun r' hr' => ?_
  refine .bind (.listGroups hr.2) fun groups hgroups => ?_
  have hacknowledged := RolloutGroup.IsOf.acknowledged hgroups
  exact .bind (.mapError (.commit henv.still hcovers (.putRolloutWithGroups hr' hacknowledged)))
    fun _ _ => .pure trivial

theorem stop_local : (m.stop a).Local watched env a fun _ => True := by
  refine withLease_local henv hfence fun fence r hcovers hr => ?_
  refine .bind (.nowSeconds henv.still) fun now _ => ?_
  refine .bind (.ofExcept fun r' happly => hr.apply happly) fun r' hr' => ?_
  exact .bind (.mapError (.commit henv.still hcovers (.stopRollout hr'))) fun _ _ => .pure trivial

theorem triggerNext_local : (m.triggerNext a).Local watched env a fun _ => True := by
  refine withLease_local henv hfence fun fence r hcovers hr => ?_
  dsimp only
  split
  · exact .throw _
  refine .bind (.listGroups hr.2) fun groups hgroups => ?_
  cases hrunning : groups.find? fun g => decide (g.state = .running) with
  | none => exact .throw _
  | some g =>
    refine .bind (.nowSeconds henv.still) fun now _ => ?_
    have hof := (hgroups g (List.mem_of_find?_eq_some hrunning)).trigger? now
    exact .bind (.mapError (.commit henv.still hcovers (.putGroup hof))) fun _ _ => .pure trivial

theorem create_local {resolver : Resolver} {n : NewRollout} (hname : n.name = a)
    (hresolver : ∀ filter, (resolver filter).Local watched env a fun _ => True) :
    (m.create resolver n).Local watched env a fun _ => True := by
  subst hname
  refine .bind (P := fun _ => NewRollout.isName n.name = true)
    (.ofExcept fun _ => NewRollout.isName_of_check) fun _ hname => ?_
  refine .bind (P := fun _ => True) (.mapError (.read ?_ fun _ _ _ _ => trivial)) fun found _ => ?_
  · intro s t hs
    simp only [Table.read, hs.rollouts _ (.inl rfl)]
  split
  · exact .throw _
  refine .bind (hresolver n.targetFilter) fun targets _ => ?_
  refine .bind (.ofExcept fun _ _ => trivial) fun plans _ => ?_
  refine .bind (.nowSeconds henv.still) fun now _ => ?_
  have hnew : (n.rollout (n.groupsFrom 0 plans) targets.size now).IsOf n.name :=
    ⟨rfl, colon_notMem_of_isName hname⟩
  refine .bind (.ofExcept fun r happly => hnew.apply happly) fun r hr => ?_
  have hgroups := NewRollout.isOf_of_mem_groupsFrom hname 0 plans
  exact .bind (.mapError (.commit henv.still hfence (.createRollout hr hgroups))) fun _ _ =>
    .pure trivial

end Operator

/-- **A report on an action of a rollout is local to it.** -/
theorem StatusReport.apply_local {report : StatusReport} (henv : env.Still)
    (hfence : (Region.own watched a).Covers fence) (haction : BelongsTo a report.action) :
    (report.apply fence).Local watched env a fun _ => True :=
  .mapError (.commit henv hfence (.report haction _))

end StagedRollout
