/-
# Cleanup is safe

A pass removes actions and groups of deleted rollouts and marks rollouts as gone that have no
groups left.  While it works on one rollout, rows of groups and actions only go away and rollouts
stay as they are (`Store.Leaves`); so what it has listed is still true of what is left, and a group
whose actions have all been removed has none.
-/
import StagedRollout.Proofs.Program.Operation

namespace StagedRollout

open Store Transaction

namespace Store

/-- Groups and actions may have gone away, and groups may count less; that is all. -/
structure Leaves (s s' : Store) : Prop where
  rollouts : s'.rollouts = s.rollouts
  groups : ∀ {id g'}, s'.group? id = some g' →
    ∃ g, s.group? id = some g ∧ g'.rolloutId = g.rolloutId
  actions : ∀ {id a}, s'.action? id = some a → s.action? id = some a

variable {s s' s'' : Store}

lemma Leaves.refl (s : Store) : Leaves s s := ⟨rfl, fun hg => ⟨_, hg, rfl⟩, fun ha => ha⟩

lemma Leaves.trans (h : Leaves s s') (h' : Leaves s' s'') : Leaves s s'' where
  rollouts := h'.rollouts.trans h.rollouts
  groups hg := by
    obtain ⟨g', hg', hof'⟩ := h'.groups hg
    obtain ⟨g, hg, hof⟩ := h.groups hg'
    exact ⟨g, hg, hof'.trans hof⟩
  actions ha := h.actions (h'.actions ha)

lemma Leaves.dropped (h : Keyed s) (a : Action) : Leaves s (s.dropped a) where
  rollouts := rollouts_dropped s a
  groups hg := h.group?_dropped_cases hg
  actions ha := (action?_dropped_eq_some.1 ha).2

lemma Leaves.withoutGroup (s : Store) (id : GroupId) : Leaves s (s.withoutGroup id) where
  rollouts := rfl
  groups hg := ⟨_, (group?_withoutGroup_eq_some.1 hg).2, rfl⟩
  actions ha := ha

lemma Leaves.rollout? (h : Leaves s s') (id : RolloutId) : s'.rollout? id = s.rollout? id := by
  rw [Store.rollout?, h.rollouts, Store.rollout?]

lemma withoutGroup_eq_self {id : GroupId} (h : Keyed s) (hnone : s.group? id = none) :
    s.withoutGroup id = s := by
  rw [Store.withoutGroup, Table.erase_eq_self h.groups_intact hnone]

end Store

namespace Cleanup

variable {α β : Type} (allowed : Intent → Prop)

/-! ## Attempts -/

/-- Work on one rollout whose writes are steps between settled chronicles, with what holds where
it succeeds and where it fails. -/
def Attempt.Orderly (t : Attempt α) (Q : α → Chronicle → Prop) (E : Chronicle → Prop)
    (c : Chronicle) : Prop :=
  ∀ report, Program.Orderly allowed ((ExceptT.run t).run report) (fun x c' => match x.1 with
    | .ok a => Q a c'
    | .error _ => E c') c

variable {allowed}

namespace Attempt.Orderly

variable {Q : α → Chronicle → Prop} {E : Chronicle → Prop} {c : Chronicle}

lemma bind {t : Attempt α} {f : α → Attempt β} {Q : β → Chronicle → Prop}
    (h : Attempt.Orderly allowed t (fun a c' => Attempt.Orderly allowed (f a) Q E c') E c) :
    Attempt.Orderly allowed (t >>= f) Q E c := fun report =>
  Program.Safe.bind (Program.Safe.mono (h report) fun x _ hx => match x with
    | (.ok _, report') => hx report'
    | (.error _, _) => hx)

lemma pure {a : α} (h : Q a c) : Attempt.Orderly allowed (pure a) Q E c := fun _ => h

lemma count {f : CleanupReport → CleanupReport} {Q : Unit → Chronicle → Prop} (h : Q () c) :
    Attempt.Orderly allowed (count f) Q E c := fun _ => h

lemma ofExcept {r : Except SchedulerError α} (herror : E c) (h : ∀ a, r = .ok a → Q a c) :
    Attempt.Orderly allowed (ExceptT.mk (Pure.pure r)) Q E c := fun _ => by
  cases r with
  | ok a => exact h a rfl
  | error e => exact herror

/-- An operation on the store. -/
lemma lift {op : Operation StoreError α} (h : Program.Orderly allowed (ExceptT.run op)
      (fun r c' => match r with
        | .ok a => Q a c'
        | .error _ => E c') c) :
    Attempt.Orderly allowed (ExceptT.mk (StateT.lift (Operation.mapError .store op))) Q E c :=
  fun _ => Program.Safe.bind (Program.Safe.bind (Program.Safe.mono h fun r _ hr => match r with
    | .ok _ => hr
    | .error _ => hr))

lemma read {view : Store → Except StoreError α} (herror : E c)
    (h : ∀ a, view c.store = .ok a → Q a c) : Attempt.Orderly allowed (read view) Q E c := by
  refine lift (Program.Orderly.look ?_)
  cases hview : view c.store with
  | ok a => exact h a hview
  | error e => exact herror

/-- A write whose outcome is known. -/
lemma commit_run {t : Transaction α} {a : α} {s : Store} (hsettled : Settled c) (herror : E c)
    (hrun : t c.store = .ok (a, s)) (hm : Move allowed c.store s)
    (hQ : ∀ c', Settled c' → c'.store = s → Q a c') :
    Attempt.Orderly allowed (commit t) Q E c := by
  refine lift ⟨hsettled, fun _ => herror, fun a' s' hrun' => ?_⟩
  obtain ⟨rfl, rfl⟩ := Prod.mk.inj (Except.ok.inj (hrun.symm.trans hrun'))
  exact ⟨.inl hm, hQ _ (hsettled.move hm) rfl⟩

end Attempt.Orderly

/-! ## One rollout -/

/-- A deleted rollout has been worked on since it was in a store. -/
structure Reclaiming (r : Rollout) (s : Store) (c : Chronicle) : Prop where
  settled : Settled c
  keyed : Keyed s
  row : s.rollout? r.id = some r
  deleting : r.state = .deleting
  left : Leaves s c.store

section

variable {r : Rollout} {s : Store} {c : Chronicle} {grace now : Nat}

lemma Reclaiming.after {c' : Chronicle} (h : Reclaiming r s c) (hsettled : Settled c')
    (hl : Leaves c.store c'.store) : Reclaiming r s c' :=
  ⟨hsettled, h.keyed, h.row, h.deleting, h.left.trans hl⟩

lemma Reclaiming.stored (h : Reclaiming r s c) : c.store.rollout? r.id = some r :=
  (h.left.rollout? r.id).trans h.row

/-- The actions of a group that are left are actions of the rollout. -/
lemma Reclaiming.action {g : RolloutGroup} {a : Action} (h : Reclaiming r s c)
    (hg : s.group? g.id = some g) (hof : g.rolloutId = r.id) (ha : a ∈ c.store.actionsOf g.id) :
    s.action? a.id = some a ∧ a.rolloutId = r.id := by
  obtain ⟨hstored, hgroup⟩ := h.settled.sound.mem_actionsOf.1 ha
  have hsa := h.left.actions hstored
  obtain ⟨g', hg', hrollout, -⟩ := h.keyed.action_group hsa
  rw [hgroup, hg] at hg'
  obtain rfl := Option.some.inj hg'
  exact ⟨hsa, hrollout.symm.trans hof⟩

lemma reclaimActions_orderly {actions : List Action} {Q : Bool → Chronicle → Prop}
    {E : Chronicle → Prop} (hmay : allowed (.reclaim grace now)) (h : Reclaiming r s c)
    (hactions : ∀ a ∈ actions, s.action? a.id = some a ∧ a.rolloutId = r.id)
    (hE : ∀ c', Reclaiming r s c' → E c')
    (hQ : ∀ kept c', Reclaiming r s c' → Leaves c.store c'.store →
      (kept = false → ∀ a ∈ actions, c'.store.action? a.id = none) → Q kept c') :
    Attempt.Orderly allowed (reclaimActions grace now actions) Q E c := by
  induction actions generalizing c Q with
  | nil => exact .pure (hQ false c h (.refl _) fun _ _ ha => absurd ha List.not_mem_nil)
  | cons a rest ih =>
    have htail : ∀ x ∈ rest, s.action? x.id = some x ∧ x.rolloutId = r.id := fun x hx =>
      hactions x (List.mem_cons_of_mem _ hx)
    rw [reclaimActions]
    split
    · exact .bind (.count (.bind (ih h htail fun _ c' h' hl _ =>
        .pure (hQ true c' h' hl (by simp)))))
    rename_i hidle
    -- an action that is gone does not come back while the others are removed
    have hrest : ∀ c', Settled c' → Leaves c.store c'.store → c'.store.action? a.id = none →
        Attempt.Orderly allowed (reclaimActions grace now rest) Q E c' := by
      intro c' hc' hl hgone
      refine ih (h.after hc' hl) htail fun kept c'' h'' hl' hall =>
        hQ kept c'' h'' (hl.trans hl') fun hkept x hx => ?_
      rcases List.mem_cons.1 hx with rfl | hx
      · rcases hx : c''.store.action? x.id with _ | b
        · rfl
        · exact absurd (hgone.symm.trans (hl'.actions hx)) (by simp)
      · exact hall hkept x hx
    obtain ⟨hsa, hof⟩ := hactions a List.mem_cons_self
    have hrun := deleteAction_run h.settled.sound.toKeyed a.id
    cases ha : c.store.action? a.id with
    | none =>
      rw [ha] at hrun
      refine .bind (.commit_run h.settled (hE c h) hrun (.beside (.refl _)) fun c' hc' hs => ?_)
      exact hrest c' hc' (hs ▸ .refl _) (hs ▸ ha)
    | some b =>
      obtain rfl : a = b := Option.some.inj (hsa.symm.trans (h.left.actions ha))
      rw [ha] at hrun
      have hm : Move allowed c.store (c.store.dropped a) :=
        .dropAction hmay ha (hof ▸ h.stored) h.deleting (Bool.not_eq_true _ ▸ hidle)
      refine .bind (.commit_run h.settled (hE c h) hrun hm fun c' hc' hs => ?_)
      refine .bind (.count (hrest c' hc' (hs ▸ .dropped h.settled.sound.toKeyed a) ?_))
      rw [hs, action?_dropped, if_pos rfl]

lemma reclaimGroups_orderly {groups : List RolloutGroup} {Q : Unit → Chronicle → Prop}
    {E : Chronicle → Prop} (hmay : allowed (.reclaim grace now)) (h : Reclaiming r s c)
    (hgroups : ∀ g ∈ groups, s.group? g.id = some g ∧ g.rolloutId = r.id)
    (hE : ∀ c', Reclaiming r s c' → E c') (hQ : ∀ c', Reclaiming r s c' → Q () c') :
    Attempt.Orderly allowed (reclaimGroups grace now groups) Q E c := by
  induction groups generalizing c with
  | nil => exact .pure (hQ c h)
  | cons g rest ih =>
    have htail : ∀ x ∈ rest, s.group? x.id = some x ∧ x.rolloutId = r.id := fun x hx =>
      hgroups x (List.mem_cons_of_mem _ hx)
    obtain ⟨hg, hof⟩ := hgroups g List.mem_cons_self
    have hlist := h.settled.sound.toKeyed.listActions_group_eq (h.keyed.isGroupId hg)
    refine .bind (.read (hE c h) fun actions hread => ?_)
    obtain rfl := Except.ok.inj (hlist.symm.trans hread)
    refine .bind (reclaimActions_orderly hmay h (fun a ha => h.action hg hof ha) hE
      fun kept c' h' hl hgone => ?_)
    cases kept with
    | true => exact ih h' htail
    | false =>
      -- an action of the group would have been there when its actions were listed
      have hnone : ∀ key a, c'.store.action? key = some a → a.groupId ≠ g.id := by
        intro key a ha hgroup
        obtain ⟨rfl, -⟩ := h'.settled.sound.action_key ha
        have hmem := h.settled.sound.mem_actionsOf.2 ⟨hl.actions ha, hgroup⟩
        exact absurd ((hgone rfl a hmem).symm.trans ha) (by simp)
      have hrun := deleteGroup_run h'.settled.sound.toKeyed g.id
      cases hg' : c'.store.group? g.id with
      | none =>
        rw [hg', withoutGroup_eq_self h'.settled.sound.toKeyed hg'] at hrun
        refine .bind (.commit_run h'.settled (hE c' h') hrun (.beside (.refl _))
          fun c'' hc'' hs => ?_)
        exact ih (h'.after hc'' (hs ▸ .refl _)) htail
      | some g' =>
        obtain ⟨old, hold, hof'⟩ := h'.left.groups hg'
        obtain rfl := Option.some.inj (hg.symm.trans hold)
        have hid := (h'.settled.sound.group_key hg').1
        rw [← hid] at hg' hrun hnone
        rw [hg'] at hrun
        have hm : Move allowed c'.store (c'.store.withoutGroup g'.id) :=
          .dropGroup hmay hg' (by rw [hof', hof]; exact h'.stored) h'.deleting hnone
        refine .bind ?_
        rw [← hid]
        refine .commit_run h'.settled (hE c' h') hrun hm fun c'' hc'' hs => ?_
        exact .bind (.count (ih (h'.after hc'' (hs ▸ .withoutGroup _ _)) htail))

/-- **Reclaiming a deleted rollout is safe**, and it leaves the other rollouts alone. -/
theorem reclaim_orderly {P : Chronicle → Prop} (hmay : allowed (.reclaim grace now))
    (hpurge : allowed (.order r .purged)) (h : Settled c) (hr : c.store.rollout? r.id = some r)
    (hdeleting : r.state = .deleting)
    (hP : ∀ c', Settled c' → (∀ id, id ≠ r.id → c'.store.rollout? id = c.store.rollout? id) →
      P c') : Attempt.Orderly allowed (reclaim grace now r) (fun _ => P) P c := by
  have hstart : Reclaiming r c.store c := ⟨h, h.sound.toKeyed, hr, hdeleting, .refl _⟩
  have hE : ∀ c', Reclaiming r c.store c' → P c' := fun c' h' =>
    hP c' h'.settled fun id _ => h'.left.rollout? id
  refine .bind (.read (hE c hstart) fun groups hread => ?_)
  rw [h.sound.listGroups_eq hr] at hread
  obtain rfl := Except.ok.inj hread
  refine .bind (reclaimGroups_orderly hmay hstart (fun g hg => h.sound.mem_groupsOf.1 hg) hE
    fun c' h' => ?_)
  refine .bind (.read (hE c' h') fun groups hread => ?_)
  rw [h'.settled.sound.listGroups_eq h'.stored] at hread
  obtain rfl := Except.ok.inj hread
  split
  · rename_i hempty
    have hnone : c'.store.groupsOf r.id = [] := List.isEmpty_iff.1 hempty
    refine .bind (.ofExcept (hE c' h') fun r' hpurged => ?_)
    have happly := Rollout.apply_eq_ok (Except.mapError_eq_ok hpurged)
    obtain ⟨s', hrun, hs'⟩ := purgeRollout_run { r' with groupIds := [] } c'.store
    refine .bind (.commit_run h'.settled (hE c' h') hrun (.purge hpurge h'.stored hnone happly hs')
      fun c'' hc'' hs => .count (hP c'' hc'' fun id hne => ?_))
    rw [hs, rollout?, hs'.rollouts, ← rollout?, rollout?_withRollout,
      if_neg (Rollout.id_of_apply happly ▸ hne), h'.left.rollout?]
  · exact .pure (hE c' h')

end

/-! ## Passes -/

lemma reclaimAll_orderly {rollouts : List Rollout} {c : Chronicle} {grace now : Nat}
    (hmay : allowed (.reclaim grace now)) (hpurge : ∀ r, allowed (.order r .purged))
    (h : Settled c) (hn : (rollouts.map (·.id)).Nodup)
    (hrows : ∀ r ∈ rollouts, c.store.rollout? r.id = some r ∧ r.state = .deleting)
    (report : CleanupReport) :
    Program.Orderly allowed ((reclaimAll grace now rollouts).run report) (fun _ => Settled) c := by
  induction rollouts generalizing c report with
  | nil => exact h
  | cons r rest ih =>
    obtain ⟨hne, htail⟩ := nodup_keys_cons hn
    obtain ⟨hr, hdeleting⟩ := hrows r List.mem_cons_self
    -- the rollouts that are left have other ids, so they are still what was listed
    have hrest : ∀ c', Settled c' →
        (∀ id, id ≠ r.id → c'.store.rollout? id = c.store.rollout? id) → ∀ report,
        Program.Orderly allowed ((reclaimAll grace now rest).run report) (fun _ => Settled) c' := by
      intro c' hc' hsame report
      refine ih hc' htail (fun x hx => ?_) report
      rw [hsame x.id (hne x hx)]
      exact hrows x (List.mem_cons_of_mem _ hx)
    have hfirst := reclaim_orderly hmay (hpurge r) h hr hdeleting hrest report
    exact Program.Safe.bind (Program.Safe.mono hfirst
      fun x _ hx => match x with
        | (.ok _, report') => hx report'
        | (.error _, report') => hx _)

/-- **A cleanup pass is safe.** -/
theorem pass_orderly {c : Chronicle} {grace now : Nat} (hmay : allowed (.reclaim grace now))
    (hpurge : ∀ r, allowed (.order r .purged)) (h : Settled c) :
    Program.Orderly allowed (pass grace now) (fun _ => Settled) c := by
  refine .bind (.look ?_)
  rw [h.sound.listRollouts_eq]
  have hrow : ∀ {key r}, c.store.rollout? key = some r → r.id = key := fun hr =>
    (h.sound.rollout_key hr).1
  have hascending := Table.rows_ascending hrow
  have hn : (((Table.rows c.store.rollouts).filter isDoomed).map (·.id)).Nodup :=
    List.pairwise_map.2 ((hascending.filter _).imp String.ne_of_lt)
  refine .bind ((reclaimAll_orderly hmay hpurge h hn (fun r hr => ?_) .zero).mono
    fun _ c h => .pure h)
  obtain ⟨hmem, hdoomed⟩ := List.mem_filter.1 hr
  obtain ⟨key, hkey⟩ := Table.mem_rows.1 hmem
  rw [isDoomed, Bool.and_eq_true, decide_eq_true_eq] at hdoomed
  refine ⟨?_, hdoomed.2⟩
  rw [hrow hkey]
  exact hkey

end Cleanup

end StagedRollout
