/-
# Devices are started with authority only

Actions are created by schedulers only, for rollouts that run or that a scheduler may start at its
time (`Run.issues`).  A rollout that has to be approved is barred: whatever else happens, it stays
without actions and its groups wait until an approval of it is followed (`Run.barred_append`).
-/
import StagedRollout.Proofs.Invariants
import StagedRollout.Proofs.Orders

namespace StagedRollout

open Store Progression

variable {allowed : Intent → Prop} {s s' t t' : Store} {l : List Action} {id : RolloutId}
  {now : Nat}

/-! ## Rollouts that may run -/

namespace Rollout

/-- A rollout runs, or a scheduler that works at a time can get it to run. -/
def RunsAt (r : Rollout) (now : Nat) : Prop :=
  r.state = .running ∨ r.state = .starting ∨
    r.state = .ready ∧ r.startPolicy.isDue now = true

/-- A scheduler that works at a time may create actions for a rollout. -/
structure MayRunAt (r : Rollout) (now : Nat) : Prop where
  kept : r.deleted = false
  runs : r.RunsAt now

lemma RunsAt.mayRunAt {r : Rollout} {groups : List RolloutGroup} (h : r.RunsAt now)
    (hagrees : r.AgreesWith groups) : r.MayRunAt now := by
  refine ⟨hagrees.deleted_eq_false ?_ ?_, h⟩ <;>
    · rcases h with h | h | ⟨h, -⟩ <;> simp [h]

end Rollout

/-- Schedulers give this command, to rollouts that are under way. -/
def Command.drives : Command → Bool
  | .started | .groupFailed _ | .retriesExhausted | .allGroupsFinished => true
  | _ => false

lemma RolloutState.Leads.underWay {source dest : RolloutState} {c : Command}
    (h : Leads source c dest) (hc : c.drives = true) : source = .running ∨ source = .starting := by
  cases h <;> simp [Command.drives] at hc ⊢

lemma RolloutState.Leads.of_start {source dest : RolloutState} (h : Leads source .start dest) :
    source = .ready := by
  cases h
  rfl

namespace Activity

variable {a : Activity} {d : Intent}

/-- A scheduler drives rollouts forward, gives them up, or lets devices join them. -/
lemma WorksAt.may (ha : a.WorksAt now) (h : a.May d) :
    Drives now d ∨ (∃ r, d = .order r .retriesExhausted) ∨ ∃ quota, d = .join quota := by
  cases h with
  | drive ha' hd =>
    refine .inl ?_
    cases ha <;> cases ha' <;> exact hd
  | giveUp => exact .inr (.inl ⟨_, rfl⟩)
  | joinInCycle | join => exact .inr (.inr ⟨_, rfl⟩)
  | order horder => cases ha <;> simp [order?] at horder
  | _ => cases ha

lemma May.works (h : a.May .issue) : ∃ now, a.WorksAt now := by
  cases h with
  | drive ha => exact ⟨_, ha⟩

end Activity

/-- A rollout that runs behind a step of a scheduler was one that it can get to run. -/
lemma Store.Step.runsAt {a : Activity} (hs : Step a.May t t') (ha : a.WorksAt now) {r' : Rollout}
    (hr' : t'.rollout? id = some r') (h : r'.RunsAt now) :
    ∃ r, t.rollout? id = some r ∧ r.RunsAt now := by
  have hchange := hs.rollout id
  rw [hr'] at hchange
  generalize t.rollout? id = row at hchange ⊢
  cases hchange with
  | same => exact ⟨r', rfl, h⟩
  | created hmay => rcases ha.may hmay with hd | ⟨_, hd⟩ | ⟨_, hd⟩ <;> cases hd
  | @ordered r _ c hmay hobeys =>
    refine ⟨r, rfl, ?_⟩
    have hleads := hobeys.leads
    have hunderWay : c.drives = true → r.RunsAt now := fun hc =>
      (hleads.underWay hc).imp_right .inl
    rcases ha.may hmay with hd | ⟨_, hd⟩ | ⟨_, hd⟩
    · cases hd with
      | start hdue => exact .inr (.inr ⟨hleads.of_start, hdue⟩)
      | started | groupFailed | finished => exact hunderWay rfl
    · obtain ⟨-, rfl⟩ := Intent.order.inj hd
      exact hunderWay rfl
    · cases hd
  | resolved hrun => exact ⟨_, rfl, .inl hrun⟩

/-- A rollout that runs on the way of a scheduler was one that it can get to run. -/
lemma Trail.runsAt {a : Activity} (h : Trail (Step a.May) s l t) (ha : a.WorksAt now)
    {r' : Rollout} (hr' : t.rollout? id = some r') (hruns : r'.RunsAt now) :
    ∃ r, s.rollout? id = some r ∧ r.RunsAt now := by
  induction h with
  | nil s => exact ⟨r', hr', hruns⟩
  | cons hs _ ih =>
    obtain ⟨r, hr, hruns⟩ := ih hr'
    exact hs.runsAt ha hr hruns

/-- **Actions are created by schedulers for rollouts that may run.** -/
theorem Run.issues {run : Run} {h : Happening} {key : ActionId} {a : Action}
    (hnone : run.store.action? key = none) (ha : (run ++ [h]).store.action? key = some a) :
    ∃ now r, h.activity.WorksAt now ∧ run.store.rollout? a.rolloutId = some r ∧
      r.MayRunAt now := by
  have hne : (run ++ [h]).store.action? key ≠ run.store.action? key := by simp [ha, hnone]
  obtain ⟨t, t', _, _, hbefore, ht, hstep, hchange, haction, hbehind⟩ := action_change hne
  have ht' := ht.step hstep
  rw [hnone] at haction hchange
  generalize hrow : t'.action? key = row at haction hchange
  cases haction with
  | same => exact absurd rfl hchange
  | issued hmay hr hrun =>
    obtain ⟨now, hworks⟩ := hmay.works
    -- the action that is stored in the end belongs to the same rollout
    rw [← ht'.toKeyed.action_rollout_eq (run ++ [h]).sound.toKeyed hrow ha] at hr
    obtain ⟨first, hfirst, hruns⟩ := hbefore.runsAt hworks hr (.inl hrun)
    exact ⟨now, first, hworks, hfirst, hruns.mayRunAt (run.sound.agrees hfirst)⟩

/-! ## Rollouts that have to be approved -/

/-- Nothing of the rollout was started: it has no action, and its groups wait. -/
structure Untouched (s : Store) (id : RolloutId) : Prop where
  actions : ∀ key a, Table.read s.actions key = .ok (some a) → a.rolloutId ≠ id
  groups : ∀ key g, Table.read s.groups key = .ok (some g) → g.rolloutId = id →
    g.state = .scheduled

/-- A rollout from which nobody gets to another state without an approval. -/
def RolloutState.Barred (state : RolloutState) : Prop :=
  state = .waitingForApproval ∨ state = .approvalDenied ∨ state = .deleting ∨ state = .deleted

lemma RolloutState.Leads.barred {source dest : RolloutState} {c : Command}
    (h : Leads source c dest) (hsource : source.Barred) (hc : c ≠ .approve) : dest.Barred := by
  cases h <;> simp_all [Barred]

/-- The rollout is barred, and nothing of it was started. -/
structure Barred (s : Store) (id : RolloutId) : Prop where
  row : ∃ r, s.rollout? id = some r ∧ r.state.Barred
  untouched : Untouched s id

/-- As long as a rollout is not under way, nothing of it is started. -/
lemma Untouched.step (h : Untouched t id) (hs : Sound t) (hstep : Step allowed t t')
    (hidle : ∀ r, t.rollout? id = some r → r.state ≠ .running ∧ r.state ≠ .paused) :
    Untouched t' id where
  actions key a ha hof := by
    have hrow : t'.action? key = some a := Table.read_eq_some_iff.1 ha
    have hold : ∀ {b}, t.action? key = some b → b.rolloutId ≠ id := fun hb =>
      h.actions key _ (Table.read_eq_some_iff.2 hb)
    have hchange := hstep.action hs key
    rw [hrow] at hchange
    generalize hb : t.action? key = row at hchange
    cases hchange with
    | same | reported | canceled => exact hold hb hof
    | issued _ hr hrun => exact (hidle _ (hof ▸ hr)).1 hrun
  groups key g hg hof := by
    have hrow : t'.group? key = some g := Table.read_eq_some_iff.1 hg
    have hold : ∀ {b}, t.group? key = some b → b.rolloutId = id → b.state = .scheduled := fun hb =>
      h.groups key _ (Table.read_eq_some_iff.2 hb)
    have hchange := hstep.group hs key
    rw [hrow] at hchange
    generalize hb : t.group? key = row at hchange
    cases hchange with
    | same => exact hold hb hof
    | created _ hwaits => exact hwaits
    | @uncounted _ old => exact (hold hb hof : old.state = .scheduled)
    | @counted old _ hc =>
      rw [hc.rest] at hof ⊢
      exact (hold hb hof : old.state = .scheduled)
    | @turned r old _ hr hturn =>
      rw [← hturn.rolloutId, hof] at hr
      obtain ⟨hrun, hpaused⟩ := hidle r hr
      exact (hturn.state_eq.elim hrun hpaused).elim

/-- A rollout that does not exist has nothing that could be started. -/
lemma Untouched.of_none (hs : Sound s) (hnone : s.rollout? id = none) : Untouched s id where
  actions key a ha := by
    rintro rfl
    obtain ⟨g, hg, hof, -⟩ := hs.action_group (Table.read_eq_some_iff.1 ha)
    obtain ⟨r, hr⟩ := hs.group_rollout hg
    rw [hof, hnone] at hr
    cases hr
  groups key g hg := by
    rintro rfl
    obtain ⟨r, hr⟩ := hs.group_rollout (Table.read_eq_some_iff.1 hg)
    rw [hnone] at hr
    cases hr

/-- **A rollout stays barred unless it follows an approval.** -/
lemma Barred.step (h : Barred t id) (hs : Sound t) (hstep : Step allowed t t')
    (hnot : ∀ r r', t.rollout? id = some r → t'.rollout? id = some r' →
      allowed (.order r .approve) → ¬ r.state.Leads .approve r'.state) : Barred t' id := by
  obtain ⟨r, hr, hbarred⟩ := h.row
  have hidle : ∀ x, t.rollout? id = some x → x.state ≠ .running ∧ x.state ≠ .paused := by
    intro x hx
    obtain rfl := Option.some.inj (hr.symm.trans hx)
    constructor <;>
      · intro hstate
        simp [RolloutState.Barred, hstate] at hbarred
  refine ⟨?_, h.untouched.step hs hstep hidle⟩
  have hchange := hstep.rollout id
  generalize hrow : t'.rollout? id = row at hchange ⊢
  rw [hr] at hchange
  cases hchange with
  | same => exact ⟨r, rfl, hbarred⟩
  | @ordered _ r' c hmay hobeys =>
    refine ⟨r', rfl, hobeys.leads.barred hbarred ?_⟩
    rintro rfl
    exact hnot r r' hr hrow hmay hobeys.leads
  | resolved hrun => exact absurd hrun (hidle r hr).1

namespace Run

variable {run : Run} {h : Happening}

lemma barred_concat (hbarred : Barred run.store id) (hnot : ¬ h.Heeds run.world id .approve) :
    Barred (run ++ [h]).store id := by
  by_contra hfree
  obtain ⟨t, t', _, _, hbefore, ht, hstep, hbreak, hbehind⟩ :=
    (run.proceeds h).exists_break (P := (Barred · id)) hbarred hfree
  have hsound := hbefore.sound run.sound
  refine hbreak (ht.step hsound hstep fun r r' hr hr' hmay hleads => hnot ?_)
  -- somebody approves, and it is this rollout that is approved
  have horder := hmay.order?_eq rfl
  rw [(hsound.rollout_key hr).1] at horder
  rw [store_concat] at hbehind
  exact h.heeds_of_trail run.sound horder hbefore hr hr' hleads hbehind

/-- **Whatever happens, a rollout stays barred until an approval of it is followed.** -/
theorem barred_append {later : Run} (hbarred : Barred run.store id)
    (hnot : ¬ later.Heeds run.world id .approve) : Barred (run ++ later).store id := by
  induction later generalizing run with
  | nil =>
    rw [List.append_nil]
    exact hbarred
  | cons h rest ih =>
    rw [Heeds, not_or, ← world_concat] at hnot
    rw [List.append_cons]
    exact ih (barred_concat hbarred hnot.1) hnot.2

/-- A rollout that has to be approved is barred from its creation on. -/
lemma barred_of_create {m : Operator} {resolver : Resolver} {n : NewRollout} {r : Rollout}
    (hcreate : h.activity = .create m resolver n)
    (happroval : n.approvalRequired.getD m.approvalRequired = true)
    (hnone : run.store.rollout? n.name = none)
    (hr : (run ++ [h]).store.rollout? n.name = some r) : Barred (run ++ [h]).store n.name := by
  have hne : (run ++ [h]).store.rollout? n.name ≠ run.store.rollout? n.name := by simp [hr, hnone]
  obtain ⟨t, t', _, _, hbefore, hsame, hstep, hchange, hbehind⟩ :=
    (run.proceeds h).exists_change (·.rollout? n.name) hne
  have ht := hbefore.sound run.sound
  have hmissing : t.rollout? n.name = none := hsame.trans hnone
  have hfirst : Barred t' n.name := by
    refine ⟨?_, (Untouched.of_none ht hmissing).step ht hstep (by simp [hmissing])⟩
    have hrow := hstep.rollout n.name
    rw [hmissing] at hrow hchange
    generalize t'.rollout? n.name = row at hrow hchange ⊢
    cases hrow with
    | same => exact absurd rfl hchange
    | @created _ _ _ x hmay _ hstate =>
      rw [hcreate] at hmay
      cases hmay with
      | create => exact ⟨x, rfl, .inl (by rw [hstate, if_pos happroval])⟩
      | drive _ hd => cases hd
  -- whoever creates does not approve
  refine hbehind.keeps (J := (Barred · n.name)) (ht.step hstep) (fun s s' hs hstep h => ?_) hfirst
  refine h.step hs hstep fun _ _ _ _ hmay => ?_
  have horder := hmay.order?_eq rfl
  simp [hcreate, Activity.order?] at horder

/-- **Devices are started with authority only.**  Actions are created by schedulers for rollouts
that run, are about to, or are due; and a rollout that has to be approved is left untouched until an
approval of it is followed. -/
theorem actions_authorised (run : Run) :
    (∀ (h : Happening) (key : ActionId) (a : Action),
      Table.read run.store.actions key = .ok none →
      Table.read (run ++ [h]).store.actions key = .ok (some a) →
      ∃ now r, h.activity.WorksAt now ∧
        Table.read run.store.rollouts a.rolloutId = .ok (some r) ∧ r.MayRunAt now) ∧
    ∀ (h : Happening) (m : Operator) (resolver : Resolver) (n : NewRollout) (r : Rollout),
      h.activity = .create m resolver n →
      n.approvalRequired.getD m.approvalRequired = true →
      Table.read run.store.rollouts n.name = .ok none →
      Table.read (run ++ [h]).store.rollouts n.name = .ok (some r) →
      ∀ later : Run, ¬ later.Heeds (run ++ [h]).world n.name .approve →
        Untouched (run ++ [h] ++ later).store n.name := by
  constructor
  · intro h key a hnone ha
    obtain ⟨now, r, hworks, hr, hmay⟩ :=
      issues (Table.intact?_of_read hnone) (Table.read_eq_some_iff.1 ha)
    exact ⟨now, r, hworks, Table.read_eq_some_iff.2 hr, hmay⟩
  · intro h m resolver n r hcreate happroval hnone hr later hnot
    have hbarred := barred_of_create hcreate happroval (Table.intact?_of_read hnone)
      (Table.read_eq_some_iff.1 hr)
    exact (barred_append hbarred hnot).untouched

/-- The first action of the rollout when its device was told. -/
def firstAction : Action where
  id := "r:0000:a"
  rolloutId := "r"
  groupId := "r:0000"
  targetId := "a"
  distribution := "d"
  actionType := .forced
  status := .created
  weight := 0
  createdAt := 5
  lastStatusAt := 5

lemma read_firstAction :
    Table.read (registered ++ [making false] ++ [cycle 5]).store.actions "r:0000:a" =
      .ok (some firstAction) := by
  cbv

/-- The rollout while it waits for approval. -/
def waiting : Rollout :=
  { midway with
    state := .waitingForApproval
    totalTargets := 3
    updatedAt := 0
    lastResolvedAt := 0 }

lemma read_waiting :
    Table.read (registered ++ [making true]).store.rollouts "r" = .ok (some waiting) := by
  cbv

theorem actions_authorised_making :
    (∃ now r, (cycle 5).activity.WorksAt now ∧
      Table.read (registered ++ [making false]).store.rollouts "r" = .ok (some r) ∧
      r.MayRunAt now) ∧
    Untouched (registered ++ [making true] ++ [cycle 5]).store "r" := by
  constructor
  · exact (actions_authorised (registered ++ [making false])).1 (cycle 5) "r:0000:a" firstAction
      (by cbv) read_firstAction
  · refine (actions_authorised registered).2 (making true) _ _ plan waiting rfl rfl (by cbv)
      read_waiting [cycle 5] ?_
    rintro (h | h)
    · cases h.order
    · exact h

end Run

end StagedRollout
