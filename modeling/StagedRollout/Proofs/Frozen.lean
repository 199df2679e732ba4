/-
# Actions change where they may only

What an action is about stays as it was when the action was created, and an action that has ended
does not change at all, even if cleanup removes it: for nobody creates an action of a deleted
rollout again (`Trail.frozen`).  An action that has not ended changes with a report on it or with a
stop of its rollout (`Run.actions_frozen`).
-/
import StagedRollout.Proofs.Invariants
import StagedRollout.Proofs.Orders

namespace StagedRollout

open Store

variable {allowed : Intent → Prop} {s s' t t' : Store} {l : List Action} {key : ActionId}
  {a b : Action}

namespace Action

/-- Behind an action another state of it may follow: the task is the same, and if the action has
ended, nothing else has changed either. -/
structure Continues (a b : Action) : Prop where
  task : a.SameTask b
  ended : a.status.isTerminal = true → b = a

lemma Continues.refl (a : Action) : Continues a a := ⟨.refl a, fun _ => rfl⟩

/-- An action that has not ended may get another status. -/
lemma Continues.withStatus (h : Continues a b) (hopen : b.status.isTerminal = false)
    (status : ActionStatus) (now : Nat) :
    Continues a { b with status := status, lastStatusAt := now } where
  task := h.task.trans rfl
  ended hend := by
    obtain rfl := h.ended hend
    simp [hopen] at hend

end Action

namespace Store

/-! ## Rows of actions -/

/-- The action is gone for good, for its rollout is deleted. -/
structure Gone (key : ActionId) (id : RolloutId) (s : Store) : Prop where
  row : s.action? key = none
  rollout : ∃ r, s.rollout? id = some r ∧ r.deleted = true

/-- **No action of a deleted rollout comes back.** -/
lemma Gone.step (h : Gone key a.rolloutId t) (hs : Keyed s) (ha : s.action? key = some a)
    (ht : Sound t) (hstep : Step allowed t t') : Gone key a.rolloutId t' := by
  obtain ⟨r, hr, hd⟩ := h.rollout
  refine ⟨?_, hstep.keeps_deleted ht hr hd⟩
  have hchange := hstep.action ht key
  rw [h.row] at hchange
  generalize hrow : t'.action? key = row at hchange ⊢
  cases hchange with
  | same => rfl
  | issued _ hr' hrun =>
    rw [hs.action_rollout_eq (ht.step hstep).toKeyed ha hrow, hr] at hr'
    obtain rfl := Option.some.inj hr'
    simp [(ht.agrees hr).deleted_eq_false_of_running hrun] at hd

/-- The action goes on, or it is gone for good. -/
def Lasting (key : ActionId) (a : Action) (s : Store) : Prop :=
  (∃ b, s.action? key = some b ∧ a.Continues b) ∨ Gone key a.rolloutId s

lemma Lasting.step (h : Lasting key a t) (hs : Keyed s) (ha : s.action? key = some a)
    (ht : Sound t) (hstep : Step allowed t t') : Lasting key a t' := by
  rcases h with ⟨b, hb, hcontinues⟩ | hgone
  · have hchange := hstep.action ht key
    rw [hb] at hchange
    generalize hrow : t'.action? key = row at hchange
    cases hchange with
    | same => exact .inl ⟨b, hrow, hcontinues⟩
    | reported _ hopen status now => exact .inl ⟨_, hrow, hcontinues.withStatus hopen status now⟩
    | canceled _ _ _ _ hopen now =>
      have hopen := ActionStatus.isTerminal_of_isOpen hopen
      exact .inl ⟨_, hrow, hcontinues.withStatus hopen .canceling now⟩
    | removed _ hr hdeleting =>
      rw [hcontinues.task.rolloutId] at hr
      exact .inr ⟨hrow, hstep.keeps_deleted ht hr (deleted_of_deleting ht hr hdeleting)⟩
  · exact .inr (hgone.step hs ha ht hstep)

end Store

/-- **On a trail an action goes on, or it is gone for good.** -/
theorem Trail.frozen (h : Trail (Step allowed) s l s') (hs : Sound s)
    (ha : s.action? key = some a) : Lasting key a s' :=
  h.keeps hs (fun _ _ ht hstep hlast => hlast.step hs.toKeyed ha ht hstep) (.inl ⟨a, ha, .refl a⟩)

/-- Whoever removes an action reclaims what is left of deleted rollouts. -/
lemma Trail.reclaims (h : Trail (Step allowed) s l s') (hs : Sound s)
    (ha : s.action? key = some a) (hnone : s'.action? key = none) :
    ∃ grace now, allowed (.reclaim grace now) := by
  obtain ⟨t, t', _, _, hbefore, ⟨b, hb⟩, hstep, hbreak, -⟩ :=
    h.exists_break (P := fun t => ∃ b, t.action? key = some b) ⟨a, ha⟩ (by simp [hnone])
  have hchange := hstep.action (hbefore.sound hs) key
  rw [hb] at hchange
  generalize hrow : t'.action? key = row at hchange hbreak
  cases hchange with
  | removed hmay => exact ⟨_, _, hmay⟩
  | _ => exact absurd ⟨_, rfl⟩ hbreak

namespace Activity

variable {x : Activity}

lemma May.report_eq (h : x.May (.report key)) :
    ∃ fence r, x = .report fence r ∧ r.action = key := by
  cases h with
  | report => exact ⟨_, _, rfl, rfl⟩
  | drive _ hd => cases hd

lemma May.cleanup_eq {grace now : Nat} (h : x.May (.reclaim grace now)) :
    x = .cleanup grace now := by
  cases h with
  | reclaim => rfl
  | drive _ hd => cases hd

/-- Cleanup moves rollouts by purges only. -/
lemma May.onlyPurges {grace now : Nat} {d : Intent} (h : (Activity.cleanup grace now).May d) :
    d.OnlyOrders .purged := by
  cases h with
  | reclaim => trivial
  | purge => exact rfl
  | order horder => simp [order?] at horder
  | drive ha => cases ha

end Activity

lemma Cleanup.idle_of_not_inFlight {grace now : Nat} (h : isInFlight grace now a = false) :
    a.status.isTerminal = true ∨ grace ≤ now - a.lastStatusAt := by
  rw [isInFlight] at h
  cases hend : a.status.isTerminal with
  | true => exact .inl rfl
  | false =>
    rw [hend] at h
    simpa using h

/-! ## Runs -/

namespace Run

variable {run : Run} {h : Happening}

/-- An action that is still there has changed by a report on it or by a stop of its rollout. -/
lemma changed (ha : run.store.action? key = some a) (hb : (run ++ [h]).store.action? key = some b)
    (hne : b ≠ a) : a.status.isTerminal = false ∧
      ((∃ fence r, h.activity = .report fence r ∧ r.action = key) ∨
        h.Heeds run.world a.rolloutId .stop) := by
  have hdiffers : (run ++ [h]).store.action? key ≠ run.store.action? key := by
    rw [ha, hb]
    simpa using hne
  obtain ⟨t, t', _, _, hbefore, ht, hstep, hother, hchange, hbehind⟩ := action_change hdiffers
  obtain ⟨hid, -⟩ := run.sound.action_key ha
  rw [ha] at hchange hother
  generalize hrow : t'.action? key = row at hchange hother
  cases hchange with
  | same => exact absurd rfl hother
  | reported hmay hopen => exact ⟨hopen, .inl (hid ▸ hmay.report_eq)⟩
  | canceled hmay hr hr' hstops hopen =>
    refine ⟨ActionStatus.isTerminal_of_isOpen hopen, .inr ?_⟩
    have horder := hmay.order?_eq rfl
    rw [(ht.rollout_key hr).1] at horder
    rw [store_concat] at hbehind
    exact h.heeds_of_trail run.sound horder hbefore hr hr' hstops hbehind
  | removed _ hr hdeleting =>
    -- it would be gone for good
    have hgone : Gone key a.rolloutId t' :=
      ⟨hrow, hstep.keeps_deleted ht hr (deleted_of_deleting ht hr hdeleting)⟩
    have hend := hbehind.keeps (J := Gone key a.rolloutId) (ht.step hstep)
      (fun _ _ ht hstep h => h.step run.sound.toKeyed ha ht hstep) hgone
    cases hend.row.symm.trans hb

/-- An action is removed by cleanup, when its rollout is being deleted and it is idle. -/
lemma removed (ha : run.store.action? key = some a)
    (hnone : (run ++ [h]).store.action? key = none) :
    ∃ grace now r, h.activity = .cleanup grace now ∧ run.store.rollout? a.rolloutId = some r ∧
      r.state = .deleting ∧ (a.status.isTerminal = true ∨ grace ≤ now - a.lastStatusAt) := by
  obtain ⟨grace, now, hmay⟩ := (run.proceeds h).reclaims run.sound ha hnone
  have hcleanup := hmay.cleanup_eq
  have hdiffers : (run ++ [h]).store.action? key ≠ run.store.action? key := by simp [ha, hnone]
  obtain ⟨t, t', _, _, hbefore, -, -, hother, hchange, -⟩ := action_change hdiffers
  rw [hcleanup] at hbefore
  rw [ha] at hchange hother
  rw [hcleanup] at hchange
  generalize t'.action? key = row at hchange hother
  cases hchange with
  | same => exact absurd rfl hother
  | reported hmay =>
    obtain ⟨_, _, hreport, -⟩ := hmay.report_eq
    cases hreport
  | canceled hmay =>
    have horder := hmay.order?_eq rfl
    simp [Activity.order?] at horder
  | @removed x _ _ _ hmay hr hdeleting hidle =>
    obtain ⟨rfl, rfl⟩ := Activity.cleanup.inj hmay.cleanup_eq
    -- in front of the pass the rollout was being deleted too
    have hfollows := hbefore.follows (fun d hd => hd.onlyPurges) a.rolloutId
    rw [hr] at hfollows
    generalize hfirst : run.store.rollout? a.rolloutId = first at hfollows
    cases hfollows with
    | @some r _ hfollows =>
      refine ⟨_, _, r, hcleanup, rfl, ?_, Cleanup.idle_of_not_inFlight hidle⟩
      rcases hfollows with hsame | hleads
      · rw [← hsame, hdeleting]
      · rw [hdeleting] at hleads
        generalize r.state = source at hleads
        cases hleads

/-- **Actions change where they may only.**  What an action is about was fixed when it was created,
and nothing of an action changes that has ended.  An action that has not ended changes with a
report on it or with a stop of its rollout that is not refused, and actions are removed by cleanup,
when their rollout is being deleted and they have ended or nothing was heard of them for long. -/
theorem actions_frozen (run : Run) {key : ActionId} {a : Action}
    (ha : Table.read run.store.actions key = .ok (some a)) :
    (∃ b ∈ run.created, b.SameTask a) ∧
    (∀ (later : Run) (b : Action), Table.read (run ++ later).store.actions key = .ok (some b) →
      a.SameTask b ∧ (a.status.isTerminal = true → b = a)) ∧
    (∀ (h : Happening) (b : Action), Table.read (run ++ [h]).store.actions key = .ok (some b) →
      b ≠ a → a.status.isTerminal = false ∧
        ((∃ fence r, h.activity = .report fence r ∧ r.action = key) ∨
          h.Heeds run.world a.rolloutId .stop)) ∧
    ∀ h : Happening, Table.read (run ++ [h]).store.actions key = .ok none →
      ∃ grace now r, h.activity = .cleanup grace now ∧
        Table.read run.store.rollouts a.rolloutId = .ok (some r) ∧ r.state = .deleting ∧
        (a.status.isTerminal = true ∨ grace ≤ now - a.lastStatusAt) := by
  have hrow : run.store.action? key = some a := Table.read_eq_some_iff.1 ha
  refine ⟨run.recorded.stored hrow, fun later b hb => ?_, fun h b hb hne => ?_, fun h hnone => ?_⟩
  · have hlast : (run ++ later).store.action? key = some b := Table.read_eq_some_iff.1 hb
    rcases (run.continues later).frozen run.sound hrow with ⟨x, hx, hcontinues⟩ | hgone
    · obtain rfl := Option.some.inj (hx.symm.trans hlast)
      exact ⟨hcontinues.task, hcontinues.ended⟩
    · cases hgone.row.symm.trans hlast
  · exact changed hrow (Table.read_eq_some_iff.1 hb) hne
  · obtain ⟨grace, now, r, hcleanup, hr, hdeleting, hidle⟩ :=
      removed hrow (Table.intact?_of_read hnone)
    exact ⟨grace, now, r, hcleanup, Table.read_eq_some_iff.2 hr, hdeleting, hidle⟩

/-- The second device is at work. -/
def openAction : Action where
  id := "r:0001:b"
  rolloutId := "r"
  groupId := "r:0001"
  targetId := "b"
  distribution := "d"
  actionType := .forced
  status := .created
  weight := 0
  createdAt := 7
  lastStatusAt := 7

lemma read_openAction :
    Table.read (threeStages ++ [deletion]).store.actions "r:0001:b" = .ok (some openAction) := by
  cbv

theorem actions_frozen_threeStages :
    (∃ b ∈ (threeStages ++ [deletion]).created, b.SameTask openAction) ∧
    ∃ grace now r, reclaiming.activity = .cleanup grace now ∧
      Table.read (threeStages ++ [deletion]).store.rollouts openAction.rolloutId = .ok (some r) ∧
      r.state = .deleting ∧
      (openAction.status.isTerminal = true ∨ grace ≤ now - openAction.lastStatusAt) := by
  obtain ⟨hcreated, -, -, hremoved⟩ := actions_frozen (threeStages ++ [deletion]) read_openAction
  exact ⟨hcreated, hremoved reclaiming (by cbv)⟩

end Run

end StagedRollout
