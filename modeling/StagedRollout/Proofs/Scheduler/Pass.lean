/-
# A cleanup pass removes what it may

A pass succeeds in a sound store, whatever surrounds it, and when it ends nothing is left to do
(`Cleanup.pass_succeeds`).  While it works on one rollout, groups and actions only go away, and an
action in flight stays (`Cleanup.Shrinks`), so a group that the pass has dealt with stays dealt
with.  The report accounts for what has gone at every moment (`Cleanup.Accounts`).

Every write of a pass leads to the same end, so a pass that was cut off can be repeated, and a
second pass does nothing.
-/
import StagedRollout.Proofs.Invariants
import StagedRollout.Proofs.Program.Terms
import StagedRollout.Proofs.Scheduler.Reclaimed

namespace StagedRollout

open Store Transaction

namespace Cleanup

variable {α β : Type} {grace now : Nat} {s₀ s s' s'' : Store} {c c' : CleanupReport} {r : Rollout}

/-! ## Attempts that succeed -/

/-- The terms of a pass. -/
def sweeping (grace now : Nat) : Terms := ⟨Sweep grace now, fun _ _ => False, fun _ _ => True⟩

/-- An attempt that succeeds, with what holds of its value, of the report and of the store. -/
def Attempt.Succeeds (grace now : Nat) (t : Attempt α) (Q : α → CleanupReport → Store → Prop)
    (c : CleanupReport) (s : Store) : Prop :=
  Program.Under (sweeping grace now) ((ExceptT.run t).run c) (fun x s' => match x.1 with
    | .ok a => Q a x.2 s'
    | .error _ => False) s

namespace Attempt.Succeeds

variable {t : Attempt α} {Q : α → CleanupReport → Store → Prop}

lemma bind {f : α → Attempt β} {Q : β → CleanupReport → Store → Prop}
    (h : Attempt.Succeeds grace now t (fun a => Attempt.Succeeds grace now (f a) Q) c s) :
    Attempt.Succeeds grace now (t >>= f) Q c s :=
  Program.Under.bind (Program.Under.mono h fun x _ hx => match x with
    | (.ok _, _) => hx
    | (.error _, _) => hx.elim)

lemma pure {a : α} (h : Q a c s) : Attempt.Succeeds grace now (pure a) Q c s := h

lemma count {f : CleanupReport → CleanupReport} {Q : Unit → CleanupReport → Store → Prop}
    (h : Q () (f c) s) : Attempt.Succeeds grace now (count f) Q c s := h

lemma read {view : Store → Except StoreError α} {a : α} (hview : view s = .ok a) (h : Q a c s) :
    Attempt.Succeeds grace now (Cleanup.read view) Q c s := by
  refine Program.Under.bind (Program.Under.bind (Program.Under.look ?_))
  rw [hview]
  exact h

lemma commit {t : Transaction α} {a : α} (hrun : t s = .ok (a, s')) (hstep : Sweep grace now s s')
    (h : Q a c s') : Attempt.Succeeds grace now (Cleanup.commit t) Q c s := by
  have hcommit : ∀ n, s.commit none n t = (.ok a, s') := fun _ => by
    rw [Store.commit, checkFence, hrun]
  refine Program.Under.bind (Program.Under.bind fun n => ?_)
  rw [hcommit]
  exact ⟨hstep, h⟩

end Attempt.Succeeds

/-! ## What has gone -/

/-- Groups and actions may have gone away, but no action in flight. -/
structure Shrinks (grace now : Nat) (s s' : Store) : Prop extends Leaves s s' where
  inFlight : ∀ {key a}, s.action? key = some a → isInFlight grace now a = true →
    s'.action? key = some a

lemma Shrinks.refl (s : Store) : Shrinks grace now s s := ⟨.refl s, fun ha _ => ha⟩

lemma Shrinks.trans (h : Shrinks grace now s s') (h' : Shrinks grace now s' s'') :
    Shrinks grace now s s'' :=
  ⟨h.toLeaves.trans h'.toLeaves, fun ha hfly => h'.inFlight (h.inFlight ha hfly) hfly⟩

lemma Shrinks.dropped {a : Action} (h : Keyed s) (ha : s.action? a.id = some a)
    (hidle : isInFlight grace now a = false) : Shrinks grace now s (s.dropped a) where
  toLeaves := .dropped h a
  inFlight {key b} hb hfly := by
    refine action?_dropped_eq_some.2 ⟨?_, hb⟩
    rintro rfl
    obtain rfl := Option.some.inj (ha.symm.trans hb)
    simp [hidle] at hfly

lemma Shrinks.withoutGroup (s : Store) (id : GroupId) : Shrinks grace now s (s.withoutGroup id) :=
  ⟨.withoutGroup s id, fun ha _ => ha⟩

/-- What is left of a tidy rollout is tidy. -/
lemma Tidy.shrinks {id : RolloutId} (h : Tidy grace now s id) (hs : Shrinks grace now s s') :
    Tidy grace now s' id where
  held := by
    obtain ⟨key, a, ha, hof, hfly⟩ := h.held
    exact ⟨key, a, hs.inFlight ha hfly, hof, hfly⟩
  groups hg hof := by
    obtain ⟨g, hg, hof'⟩ := hs.groups hg
    obtain ⟨key, a, ha, hgroup, hfly⟩ := h.groups hg (hof'.symm.trans hof)
    exact ⟨key, a, hs.inFlight ha hfly, hgroup, hfly⟩
  actions ha hof := h.actions (hs.actions ha) hof

/-- A pass has dealt with a group: the group is gone or has an action in flight, and it has no
other actions. -/
structure Dealt (grace now : Nat) (s : Store) (id : GroupId) : Prop where
  kept : s.group? id = none ∨
    ∃ key a, s.action? key = some a ∧ a.groupId = id ∧ isInFlight grace now a = true
  actions : ∀ {key a}, s.action? key = some a → a.groupId = id → isInFlight grace now a = true

lemma Dealt.shrinks {id : GroupId} (h : Dealt grace now s id) (hs : Shrinks grace now s s') :
    Dealt grace now s' id where
  kept := by
    rcases h.kept with hnone | ⟨key, a, ha, hgroup, hfly⟩
    · refine .inl (Option.eq_none_iff_forall_ne_some.2 fun g' hg' => ?_)
      obtain ⟨g, hg, -⟩ := hs.groups hg'
      cases hnone.symm.trans hg
    · exact .inr ⟨key, a, hs.inFlight ha hfly, hgroup, hfly⟩
  actions ha := h.actions (hs.actions ha)

/-- A rollout with groups that a pass has all dealt with is tidy. -/
lemma tidy_of_dealt {id : RolloutId} (h : Sound s) (hsome : s.groupsOf id ≠ [])
    (hdealt : ∀ {key g}, s.group? key = some g → g.rolloutId = id → Dealt grace now s key) :
    Tidy grace now s id where
  held := by
    obtain ⟨g, hg⟩ := List.exists_mem_of_ne_nil _ hsome
    obtain ⟨hg, hof⟩ := h.mem_groupsOf.1 hg
    rcases (hdealt hg hof).kept with hnone | ⟨key, a, ha, hgroup, hfly⟩
    · cases hnone.symm.trans hg
    · obtain ⟨g', hg', hof', -⟩ := h.action_group ha
      rw [hgroup, hg] at hg'
      obtain rfl := Option.some.inj hg'
      exact ⟨key, a, ha, hof'.symm.trans hof, hfly⟩
  groups hg hof := (hdealt hg hof).kept.resolve_left fun hnone => by cases hnone.symm.trans hg
  actions ha hof := by
    obtain ⟨g, hg, hofg, -⟩ := h.action_group ha
    exact (hdealt hg (hofg.trans hof)).actions ha rfl

/-! ## What is reported -/

/-- The report of a pass accounts for everything that has gone since it began. -/
structure Accounts (s : Store) (c : CleanupReport) (s' : Store) : Prop where
  actions : (Table.rows s.actions).length = c.actionsDeleted + (Table.rows s'.actions).length
  groups : (Table.rows s.groups).length = c.groupsDeleted + (Table.rows s'.groups).length
  rollouts : (Table.rows s.rollouts).countP isDoomed =
    c.rolloutsPurged + (Table.rows s'.rollouts).countP isDoomed
  failed : c.failed = 0

namespace Accounts

lemma refl (s : Store) : Accounts s .zero s :=
  ⟨(Nat.zero_add _).symm, (Nat.zero_add _).symm, (Nat.zero_add _).symm, rfl⟩

lemma dropAction {a : Action} (h : Accounts s₀ c s) (hs : Sound s)
    (ha : s.action? a.id = some a) :
    Accounts s₀ { c with actionsDeleted := c.actionsDeleted + 1 } (s.dropped a) := by
  obtain ⟨g, hg, -⟩ := hs.action_group ha
  have hgone := Table.count_erase (fun _ : Action => true) s.actions a.id
  have hcounted := Table.count_put (fun _ : RolloutGroup => true) s.groups g.id
    { g with counts := g.counts.decrement a.status }
  rw [← action?, ha] at hgone
  rw [(hs.group_key hg).1, ← group?, hg] at hcounted
  simp only [Table.count, List.countP_true, Option.toList_some, List.length_singleton]
    at hgone hcounted
  obtain ⟨hactions, hgroups, hrollouts, hfailed⟩ := h
  refine ⟨?_, ?_, ?_, hfailed⟩
  · rw [dropped_eq hg, withGroup, withoutAction]
    simp only
    omega
  · rw [dropped_eq hg, withGroup, withoutAction, (hs.group_key hg).1]
    simp only
    omega
  · rw [rollouts_dropped]
    exact hrollouts

lemma dropGroup {g : RolloutGroup} (h : Accounts s₀ c s) (hg : s.group? g.id = some g) :
    Accounts s₀ { c with groupsDeleted := c.groupsDeleted + 1 } (s.withoutGroup g.id) := by
  have hgone := Table.count_erase (fun _ : RolloutGroup => true) s.groups g.id
  rw [← group?, hg] at hgone
  simp only [Table.count, List.countP_true, Option.toList_some, List.length_singleton] at hgone
  obtain ⟨hactions, hgroups, hrollouts, hfailed⟩ := h
  refine ⟨hactions, ?_, hrollouts, hfailed⟩
  rw [Store.withoutGroup]
  simp only
  omega

lemma purge (h : Accounts s₀ c s) (hr : s.rollout? r.id = some r) (hdoomed : isDoomed r = true) :
    Accounts s₀ { c with rolloutsPurged := c.rolloutsPurged + 1 } (s.purged (gone now r)) := by
  have hgone := Table.count_put isDoomed s.rollouts r.id (gone now r)
  rw [← rollout?, hr] at hgone
  simp only [Table.count, Option.toList_some, List.countP_singleton, hdoomed, isDoomed_gone,
    if_true, if_false, Bool.false_eq_true, Nat.add_zero] at hgone
  obtain ⟨hactions, hgroups, hrollouts, hfailed⟩ := h
  refine ⟨hactions, hgroups, ?_, hfailed⟩
  change (Table.rows s₀.rollouts).countP isDoomed = c.rolloutsPurged + 1 +
    (Table.rows (Table.put s.rollouts r.id (gone now r))).countP isDoomed
  omega

end Accounts

/-! ## One rollout -/

/-- A pass that began in one store works on a rollout since another one. -/
structure Ongoing (grace now : Nat) (s₀ s : Store) (c : CleanupReport) (s' : Store) : Prop where
  sound : Sound s'
  shrinks : Shrinks grace now s s'
  accounts : Accounts s₀ c s'

/-- An action that is not in flight is removed, unless it is gone already. -/
lemma deleteAction_succeeds {a : Action} {Q : Bool → CleanupReport → Store → Prop}
    (hr : s.rollout? r.id = some r) (hdoomed : isDoomed r = true) (h : Ongoing grace now s₀ s c s')
    (ha : s.action? a.id = some a) (hof : a.rolloutId = r.id)
    (hidle : isInFlight grace now a = false) (hgone : s'.action? a.id = none → Q false c s')
    (hremoved : Ongoing grace now s₀ s { c with actionsDeleted := c.actionsDeleted + 1 }
        (s'.dropped a) → Shrinks grace now s' (s'.dropped a) →
      (s'.dropped a).action? a.id = none → Q true c (s'.dropped a)) :
    Attempt.Succeeds grace now (Cleanup.commit (deleteAction a.id)) Q c s' := by
  have hrun := deleteAction_run h.sound.toKeyed a.id
  cases hfound : s'.action? a.id with
  | none =>
    rw [hfound] at hrun
    exact .commit hrun (.rest s') (hgone hfound)
  | some b =>
    obtain rfl : a = b := Option.some.inj (ha.symm.trans (h.shrinks.actions hfound))
    rw [hfound] at hrun
    have hrow : s'.rollout? a.rolloutId = some r := by
      rw [hof, h.shrinks.rollout?, hr]
    have hstep : Sweep grace now s' (s'.dropped a) := .dropAction hfound hrow hdoomed hidle
    have hs := Shrinks.dropped h.sound.toKeyed hfound hidle
    refine .commit hrun hstep (hremoved ?_ hs ?_)
    · exact ⟨hstep.sound h.sound, h.shrinks.trans hs, h.accounts.dropAction h.sound hfound⟩
    · rw [action?_dropped, if_pos rfl]

lemma reclaimActions_succeeds {actions : List Action} {Q : Bool → CleanupReport → Store → Prop}
    (hr : s.rollout? r.id = some r) (hdoomed : isDoomed r = true) (h : Ongoing grace now s₀ s c s')
    (hactions : ∀ a ∈ actions, s.action? a.id = some a ∧ a.rolloutId = r.id)
    (hQ : ∀ c' s'', Ongoing grace now s₀ s c' s'' → Shrinks grace now s' s'' →
      (∀ a ∈ actions, isInFlight grace now a = false → s''.action? a.id = none) →
        Q (actions.any (isInFlight grace now)) c' s'') :
    Attempt.Succeeds grace now (reclaimActions grace now actions) Q c s' := by
  induction actions generalizing c s' Q with
  | nil => exact .pure (hQ c s' h (.refl s') fun _ ha => absurd ha List.not_mem_nil)
  | cons a rest ih =>
    have htail : ∀ x ∈ rest, s.action? x.id = some x ∧ x.rolloutId = r.id := fun x hx =>
      hactions x (List.mem_cons_of_mem _ hx)
    rw [reclaimActions]
    split
    · rename_i hfly
      have hkept : Ongoing grace now s₀ s { c with actionsRetained := c.actionsRetained + 1 } s' :=
        ⟨h.sound, h.shrinks, h.accounts.actions, h.accounts.groups, h.accounts.rollouts,
          h.accounts.failed⟩
      refine .bind (.count (.bind (ih hkept htail fun c' s'' h' hs hgone => .pure ?_)))
      have hany : (a :: rest).any (isInFlight grace now) = true := by simp [hfly]
      rw [← hany]
      refine hQ c' s'' h' hs fun x hx hidle => ?_
      rcases List.mem_cons.1 hx with rfl | hx
      · simp [hfly] at hidle
      · exact hgone x hx hidle
    · rename_i hnot
      have hidle : isInFlight grace now a = false := Bool.not_eq_true _ ▸ hnot
      -- an action that is gone does not come back while the others are removed
      have hrest : ∀ c' s₁, Ongoing grace now s₀ s c' s₁ → Shrinks grace now s' s₁ →
          s₁.action? a.id = none →
          Attempt.Succeeds grace now (reclaimActions grace now rest) Q c' s₁ := by
        intro c' s₁ h' hs hnone
        have hany : (a :: rest).any (isInFlight grace now) = rest.any (isInFlight grace now) := by
          simp [hidle]
        refine ih h' htail fun c'' s'' h'' hs' hgone => hany ▸ hQ c'' s'' h'' (hs.trans hs') ?_
        intro x hx hx'
        rcases List.mem_cons.1 hx with rfl | hx
        · refine Option.eq_none_iff_forall_ne_some.2 fun b hb => ?_
          cases hnone.symm.trans (hs'.actions hb)
        · exact hgone x hx hx'
      obtain ⟨ha, hof⟩ := hactions a List.mem_cons_self
      exact .bind (deleteAction_succeeds hr hdoomed h ha hof hidle
        (fun hnone => hrest c s' h (.refl s') hnone)
        fun h' hs hnone => .bind (.count (hrest _ _ h' hs hnone)))

/-- What is listed as the actions of a group was there from the start. -/
lemma Ongoing.listed {g : RolloutGroup} (h : Ongoing grace now s₀ s c s') (hs : Keyed s)
    (hg : s.group? g.id = some g) :
    ∀ a ∈ s'.actionsOf g.id, s.action? a.id = some a ∧ a.rolloutId = g.rolloutId := by
  intro a ha
  obtain ⟨ha, hgroup⟩ := h.sound.mem_actionsOf.1 ha
  have hsa := h.shrinks.actions ha
  obtain ⟨g', hg', hrollout, -⟩ := hs.action_group hsa
  rw [hgroup, hg] at hg'
  obtain rfl := Option.some.inj hg'
  exact ⟨hsa, hrollout.symm⟩

/-- A group whose actions are all gone is removed, unless it is gone already. -/
lemma deleteGroup_succeeds {g : RolloutGroup} {Q : Bool → CleanupReport → Store → Prop}
    (hr : s.rollout? r.id = some r) (hdoomed : isDoomed r = true) (h : Ongoing grace now s₀ s c s')
    (hg : s.group? g.id = some g) (hof : g.rolloutId = r.id)
    (hnone : ∀ key a, s'.action? key = some a → a.groupId ≠ g.id)
    (hgone : Dealt grace now s' g.id → Q false c s')
    (hremoved : Ongoing grace now s₀ s { c with groupsDeleted := c.groupsDeleted + 1 }
        (s'.withoutGroup g.id) → Shrinks grace now s' (s'.withoutGroup g.id) →
      Dealt grace now (s'.withoutGroup g.id) g.id → Q true c (s'.withoutGroup g.id)) :
    Attempt.Succeeds grace now (Cleanup.commit (deleteGroup g.id)) Q c s' := by
  have hrun := deleteGroup_run h.sound.toKeyed g.id
  cases hfound : s'.group? g.id with
  | none =>
    rw [hfound, withoutGroup_eq_self h.sound.toKeyed hfound] at hrun
    exact .commit hrun (.rest s')
      (hgone ⟨.inl hfound, fun ha hgroup => absurd hgroup (hnone _ _ ha)⟩)
  | some g' =>
    obtain ⟨old, hold, hof'⟩ := h.shrinks.groups hfound
    obtain rfl := Option.some.inj (hg.symm.trans hold)
    have hid : g'.id = g.id := (h.sound.group_key hfound).1
    rw [← hid] at hfound hrun hnone hremoved ⊢
    rw [hfound] at hrun
    have hrow : s'.rollout? g'.rolloutId = some r := by
      rw [hof', hof, h.shrinks.rollout?, hr]
    have hstep : Sweep grace now s' (s'.withoutGroup g'.id) :=
      .dropGroup hfound hrow hdoomed hnone
    have hs : Shrinks grace now s' (s'.withoutGroup g'.id) := .withoutGroup s' g'.id
    refine .commit hrun hstep (hremoved ?_ hs ?_)
    · exact ⟨hstep.sound h.sound, h.shrinks.trans hs, h.accounts.dropGroup hfound⟩
    · refine ⟨.inl ?_, fun ha hgroup => absurd hgroup (hnone _ _ ha)⟩
      rw [group?_withoutGroup, if_pos rfl]

lemma reclaimGroups_succeeds {groups : List RolloutGroup}
    {Q : Unit → CleanupReport → Store → Prop} (hs : Keyed s) (hr : s.rollout? r.id = some r)
    (hdoomed : isDoomed r = true) (h : Ongoing grace now s₀ s c s')
    (hgroups : ∀ g ∈ groups, s.group? g.id = some g ∧ g.rolloutId = r.id)
    (hQ : ∀ c' s'', Ongoing grace now s₀ s c' s'' → Shrinks grace now s' s'' →
      (∀ g ∈ groups, Dealt grace now s'' g.id) → Q () c' s'') :
    Attempt.Succeeds grace now (reclaimGroups grace now groups) Q c s' := by
  induction groups generalizing c s' with
  | nil => exact .pure (hQ c s' h (.refl s') fun _ hg => absurd hg List.not_mem_nil)
  | cons g rest ih =>
    have htail : ∀ x ∈ rest, s.group? x.id = some x ∧ x.rolloutId = r.id := fun x hx =>
      hgroups x (List.mem_cons_of_mem _ hx)
    obtain ⟨hg, hof⟩ := hgroups g List.mem_cons_self
    -- a group that is dealt with stays so while the others are removed
    have hrest : ∀ c' s₁, Ongoing grace now s₀ s c' s₁ → Shrinks grace now s' s₁ →
        Dealt grace now s₁ g.id →
        Attempt.Succeeds grace now (reclaimGroups grace now rest) Q c' s₁ := by
      intro c' s₁ h' hs₁ hdealt
      refine ih h' htail fun c'' s'' h'' hs' hall => hQ c'' s'' h'' (hs₁.trans hs') ?_
      exact List.forall_mem_cons.2 ⟨hdealt.shrinks hs', hall⟩
    have hlisted : ∀ a ∈ s'.actionsOf g.id, s.action? a.id = some a ∧ a.rolloutId = r.id :=
      hof ▸ h.listed hs hg
    refine .bind (.read (h.sound.listActions_group_eq (hs.isGroupId hg)) (.bind
      (reclaimActions_succeeds hr hdoomed h hlisted fun c' s₁ h' hs₁ hgone => ?_)))
    have hleft : ∀ {key a}, s₁.action? key = some a → a.groupId = g.id →
        a ∈ s'.actionsOf g.id ∧ isInFlight grace now a = true := by
      intro key a ha hgroup
      obtain ⟨rfl, -⟩ := h'.sound.action_key ha
      have hmem := h.sound.mem_actionsOf.2 ⟨hs₁.actions ha, hgroup⟩
      refine ⟨hmem, (Bool.eq_false_or_eq_true _).resolve_right fun hidle => ?_⟩
      cases (hgone a hmem hidle).symm.trans ha
    cases hkept : (s'.actionsOf g.id).any (isInFlight grace now) with
    | true =>
      obtain ⟨a, hmem, hfly⟩ := List.any_eq_true.1 hkept
      obtain ⟨ha, hgroup⟩ := h.sound.mem_actionsOf.1 hmem
      exact hrest c' s₁ h' hs₁
        ⟨.inr ⟨a.id, a, hs₁.inFlight ha hfly, hgroup, hfly⟩, fun ha hgroup => (hleft ha hgroup).2⟩
    | false =>
      have hnone : ∀ key a, s₁.action? key = some a → a.groupId ≠ g.id := by
        intro key a ha hgroup
        obtain ⟨hmem, hfly⟩ := hleft ha hgroup
        have hany := List.any_eq_true.2 ⟨a, hmem, hfly⟩
        rw [hkept] at hany
        cases hany
      exact .bind (deleteGroup_succeeds hr hdoomed h' hg hof hnone
        (fun hdealt => hrest c' s₁ h' hs₁ hdealt)
        fun h'' hs₂ hdealt => .bind (.count (hrest _ _ h'' (hs₁.trans hs₂) hdealt)))

/-- What a pass does to one rollout. -/
structure Settles (grace now : Nat) (s₀ : Store) (r : Rollout) (s : Store) (c : CleanupReport)
    (s' : Store) : Prop where
  sound : Sound s'
  accounts : Accounts s₀ c s'
  others : ∀ id, id ≠ r.id → s'.rollout? id = s.rollout? id
  tidy : ∀ id, id ≠ r.id → Tidy grace now s id → Tidy grace now s' id
  settled : ∀ x, s'.rollout? r.id = some x → isDoomed x = true → Tidy grace now s' r.id

lemma purgeRollout_eq (r : Rollout) (s : Store) :
    purgeRollout r s = .ok ((), s.purged r) := rfl

/-- Where no group is left, the rollout is marked as gone. -/
lemma Settles.purged (hr : s.rollout? r.id = some r) (hdoomed : isDoomed r = true)
    (h : Ongoing grace now s₀ s c s') (hstep : Sweep grace now s' (s'.purged (gone now r))) :
    Settles grace now s₀ r s { c with rolloutsPurged := c.rolloutsPurged + 1 }
      (s'.purged (gone now r)) where
  sound := hstep.sound h.sound
  accounts := h.accounts.purge ((h.shrinks.rollout? r.id).trans hr) hdoomed
  others id hne := (rollout?_withRollout s' (gone now r) id).trans
    ((if_neg hne).trans (h.shrinks.rollout? id))
  tidy id _ htidy := by
    have htidy' := htidy.shrinks h.shrinks
    exact ⟨htidy'.held, htidy'.groups, htidy'.actions⟩
  settled x hx hdoomed' := by
    have hgone : (s'.purged (gone now r)).rollout? r.id = some (gone now r) :=
      (rollout?_withRollout s' (gone now r) r.id).trans (if_pos rfl)
    obtain rfl := Option.some.inj (hgone.symm.trans hx)
    simp [isDoomed_gone] at hdoomed'

/-- **Reclaiming a rollout succeeds**, and nothing of it is left that may go. -/
theorem reclaim_succeeds {Q : Unit → CleanupReport → Store → Prop} (hs : Sound s)
    (hr : s.rollout? r.id = some r) (hdoomed : isDoomed r = true) (haccounts : Accounts s₀ c s)
    (hQ : ∀ c' s', Settles grace now s₀ r s c' s' → Q () c' s') :
    Attempt.Succeeds grace now (reclaim grace now r) Q c s := by
  have hgroups : ∀ g ∈ s.groupsOf r.id, s.group? g.id = some g ∧ g.rolloutId = r.id :=
    fun g hg => hs.mem_groupsOf.1 hg
  refine .bind (.read (hs.listGroups_eq hr) (.bind (reclaimGroups_succeeds hs.toKeyed hr hdoomed
    ⟨hs, .refl s, haccounts⟩ hgroups fun c' s' h hshrinks hdealt => ?_)))
  have hrow : s'.rollout? r.id = some r := (hshrinks.rollout? r.id).trans hr
  refine .bind (.read (h.sound.listGroups_eq hrow) ?_)
  split
  · rename_i hempty
    have hnone : s'.groupsOf r.id = [] := List.isEmpty_iff.1 hempty
    have happly : r.apply .purged now = .ok { r with state := .deleted, updatedAt := now } := by
      rw [Rollout.apply, apply?_purged hdoomed]
    rw [happly]
    have hstep : Sweep grace now s' (s'.purged (gone now r)) := .purge hrow hdoomed hnone
    exact .bind (.pure (.bind (.commit (purgeRollout_eq (gone now r) s') hstep
      (.count (hQ _ _ (.purged hr hdoomed h hstep))))))
  · rename_i hsome
    refine .pure (hQ c' s' ⟨h.sound, h.accounts, fun id _ => hshrinks.rollout? id,
      fun id _ htidy => htidy.shrinks hshrinks, fun _ _ _ => ?_⟩)
    refine tidy_of_dealt h.sound (fun hnil => hsome (List.isEmpty_iff.2 hnil)) fun hg hof => ?_
    obtain ⟨old, hold, hof'⟩ := hshrinks.groups hg
    obtain ⟨rfl, -⟩ := hs.group_key hold
    exact hdealt old (hs.mem_groupsOf.2 ⟨hold, hof'.symm.trans hof⟩)

/-! ## Passes -/

lemma reclaimAll_succeeds {rollouts : List Rollout} (hs : Sound s)
    (hn : (rollouts.map (·.id)).Nodup) (haccounts : Accounts s₀ c s)
    (hrows : ∀ x ∈ rollouts, s.rollout? x.id = some x ∧ isDoomed x = true)
    (hothers : ∀ id x, s.rollout? id = some x → isDoomed x = true →
      x ∈ rollouts ∨ Tidy grace now s id) :
    Program.Under (sweeping grace now) ((reclaimAll grace now rollouts).run c)
      (fun x s' => Sound s' ∧ Clean grace now s' ∧ Accounts s₀ x.2 s') s := by
  induction rollouts generalizing c s with
  | nil =>
    exact ⟨hs, fun id x hx hdoomed => (hothers id x hx hdoomed).resolve_left List.not_mem_nil,
      haccounts⟩
  | cons r rest ih =>
    obtain ⟨hne, htail⟩ := nodup_keys_cons hn
    obtain ⟨hr, hdoomed⟩ := hrows r List.mem_cons_self
    -- the rollouts that are left have other ids, so they are still what was listed
    have hrest : ∀ c' s', Settles grace now s₀ r s c' s' →
        Program.Under (sweeping grace now) ((reclaimAll grace now rest).run c')
          (fun x s' => Sound s' ∧ Clean grace now s' ∧ Accounts s₀ x.2 s') s' := by
      intro c' s' h
      refine ih h.sound htail h.accounts (fun x hx => ?_) fun id x hx hdoomed' => ?_
      · rw [h.others x.id (hne x hx)]
        exact hrows x (List.mem_cons_of_mem _ hx)
      · by_cases hid : id = r.id
        · subst hid
          exact .inr (h.settled x hx hdoomed')
        · rw [h.others id hid] at hx
          rcases hothers id x hx hdoomed' with hmem | htidy
          · rcases List.mem_cons.1 hmem with rfl | hmem
            · exact absurd (hs.rollout_key hx).1.symm hid
            · exact .inl hmem
          · exact .inr (h.tidy id hid htidy)
    have hfirst := reclaim_succeeds hs hr hdoomed haccounts
      (Q := fun _ c' s' => Program.Under (sweeping grace now) ((reclaimAll grace now rest).run c')
        (fun x s' => Sound s' ∧ Clean grace now s' ∧ Accounts s₀ x.2 s') s') hrest
    exact Program.Under.bind (Program.Under.mono hfirst fun x _ hx => match x with
      | (.ok _, _) => hx
      | (.error _, _) => hx.elim)

/-- **A pass removes everything that it may**, and its report accounts for it. -/
theorem pass_succeeds (hs : Sound s) : Program.Under (sweeping grace now) (pass grace now)
    (fun c s' => Sound s' ∧ Clean grace now s' ∧ Accounts s c s') s := by
  have hrow : ∀ {key r}, s.rollout? key = some r → r.id = key := fun hr => (hs.rollout_key hr).1
  have hn : (((Table.rows s.rollouts).filter isDoomed).map (·.id)).Nodup :=
    List.pairwise_map.2 (((Table.rows_ascending hrow).filter _).imp String.ne_of_lt)
  refine .bind (.look ?_)
  rw [hs.listRollouts_eq]
  refine .bind ((reclaimAll_succeeds hs hn (.refl s) (fun r hr => ?_)
    fun id r hr hdoomed => ?_).mono fun _ _ h => .pure h)
  · exact (Table.mem_filter_rows hrow).1 hr
  · exact .inl ((Table.mem_filter_rows hrow).2 ⟨hrow hr ▸ hr, hdoomed⟩)

variable {env : Surroundings} {w w' : World}

/-- Whatever a pass has done so far, it leads to the same end. -/
lemma reclaimed_of_moments {l : List Moment} (hs : Sound s) (hlinked : Moment.Linked s l s')
    (hwithin : ∀ m ∈ l, m.Within (sweeping grace now) env) :
    Sound s' ∧ ∀ S, Reclaimed grace now s' S → Reclaimed grace now s S := by
  refine (hlinked.invariant (J := fun s' => Sound s' ∧
    ∀ S, Reclaimed grace now s' S → Reclaimed grace now s S) ⟨hs, fun _ hS => hS⟩ ?_).2
  rintro m hm ⟨hbefore, hend⟩
  have hstep : Sweep grace now m.before m.after := by
    cases hmessage : m.message with
    | none =>
      rcases (hwithin m hm).own hmessage with heq | hstep
      · exact heq ▸ .rest _
      · exact hstep
    | some a => exact ((hwithin m hm).told a hmessage).1.elim
  exact ⟨hstep.sound hbefore, fun S hS => hend S (hstep.reclaimed hbefore hS)⟩

/-- What a pass leaves behind. -/
lemma pass_run (grace now : Nat) (env : Surroundings) (hs : Sound w.store) :
    let s' := ((pass grace now).run env w).2.store
    Sound s' ∧ Reclaimed grace now w.store s' ∧ Reclaimed grace now s' s' ∧
      Accounts w.store ((pass grace now).run env w).1 s' := by
  have hpass : (pass grace now).Under (sweeping grace now) _ w.store := pass_succeeds hs
  have hdeliver : ∀ a s, (sweeping grace now).meanwhile s (env.deliver a s).2 := fun _ _ => trivial
  obtain ⟨hwithin, hsound, hclean, haccounts⟩ := hpass.run hdeliver
  have hself := hclean.reclaimed hsound
  have hlinked := Program.moments_linked (pass grace now) env w
  exact ⟨hsound, (reclaimed_of_moments hs hlinked hwithin).2 _ hself, hself, haccounts⟩

/-- A pass that begins anew where another one was cut off ends where that one would have ended. -/
lemma pass_resumed (env' : Surroundings) (hs : Sound w.store) (k : Nat)
    (hw : w'.store = ((pass grace now).runWrites env k w).2.store) :
    ((pass grace now).run env' w').2.store = ((pass grace now).run env w).2.store := by
  rw [← Program.run_cut] at hw
  have hpass : (pass grace now).Under (sweeping grace now) _ w.store := pass_succeeds hs
  have hdeliver : ∀ a s, (sweeping grace now).meanwhile s (env.deliver a s).2 := fun _ _ => trivial
  obtain ⟨hwithin, -⟩ := (hpass.cut k).run hdeliver
  have hlinked := Program.moments_linked ((pass grace now).cut k) env w
  obtain ⟨hcut, hend⟩ := reclaimed_of_moments hs hlinked hwithin
  rw [← hw] at hcut hend
  obtain ⟨-, hreclaimed, -⟩ := pass_run grace now env hs
  obtain ⟨-, hreclaimed', -⟩ := pass_run grace now env' hcut
  exact (hend _ hreclaimed').unique hreclaimed

lemma Accounts.nothing (h : Accounts s c s) : c.isNoop = true ∧ c.failed = 0 := by
  obtain ⟨hactions, hgroups, hrollouts, hfailed⟩ := h
  refine ⟨?_, hfailed⟩
  simp only [CleanupReport.isNoop, Bool.and_eq_true, beq_iff_eq]
  omega

/-- A pass behind another one does nothing. -/
lemma pass_again (env' : Surroundings) (hs : Sound w.store)
    (hw : w'.store = ((pass grace now).run env w).2.store) :
    ((pass grace now).run env' w').2.store = w'.store ∧
      ((pass grace now).run env' w').1.isNoop = true ∧
      ((pass grace now).run env' w').1.failed = 0 := by
  obtain ⟨hsound, -, hself, -⟩ := pass_run grace now env hs
  rw [← hw] at hsound hself
  obtain ⟨-, hreclaimed, -, haccounts⟩ := pass_run grace now env' hsound
  have hsame := hreclaimed.unique hself
  rw [hsame] at haccounts
  exact ⟨hsame, haccounts.nothing⟩

end Cleanup

namespace Run

open Cleanup

/-- **Cleanup is exact, restartable and idempotent.**  A pass removes exactly the rows that it may
of the rollouts that are being deleted and reports how many these are; where it is cut off before
any of its writes, another pass at the same time ends in the same store; and a pass behind it
changes nothing. -/
theorem cleanup_exact (run : Run) (grace now : Nat) (env : Surroundings) :
    let p := pass grace now
    let s' := (p.run env run.world).2.store
    (∀ id, dooms run.store id = true ↔ ∃ r, run.store.rollout? id = some r ∧ r.state = .deleting) ∧
    Reclaimed grace now run.store s' ∧ Accounts run.store (p.run env run.world).1 s' ∧
    (∀ (k : Nat) (w : World), w.store = (p.runWrites env k run.world).2.store →
      ∀ env', (p.run env' w).2.store = s') ∧
    (∀ w : World, w.store = s' → ∀ env', (p.run env' w).2.store = s' ∧
      (p.run env' w).1.isNoop = true ∧ (p.run env' w).1.failed = 0) := by
  intro p s'
  have hsound : Sound run.world.store := run.sound
  obtain ⟨-, hreclaimed, -, haccounts⟩ := pass_run grace now env hsound
  refine ⟨fun _ => dooms_iff_deleting hsound, hreclaimed, haccounts,
    fun k w hw env' => pass_resumed env' hsound k hw, fun w hw env' => ?_⟩
  obtain ⟨hsame, hreport⟩ := pass_again env' hsound hw
  exact ⟨hsame.trans hw, hreport⟩

/-- Behind the deletion of a rollout with an action that has ended and one that was reported on
long ago, a pass removes both actions, all three groups and the rollout. -/
example : ((pass 60 100).run quiet (Run.world (threeStages ++ [deletion]))).1 =
    ⟨1, 3, 2, 0, 0⟩ := by cbv

end Run

end StagedRollout
