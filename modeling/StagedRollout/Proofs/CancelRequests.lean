/-
# How long a cancel request stands

Behind a stop every action of the rollout is to be canceled or has ended, and the rollout never
runs again, so it gets no further actions (`Store.Halts`).  A device may say that it is still at
work nevertheless: a report is refused by an action that has ended, and by no other one, so it
takes the cancel request back.  Nothing else does: no command, no cycle, no cleanup pass and no
report on another action (`Run.canceled_until_reported`).
-/
import StagedRollout.Proofs.Frozen
import StagedRollout.Proofs.Stops

namespace StagedRollout

open Store

variable {allowed : Intent → Prop} {s s' : Store} {id : RolloutId} {key : ActionId} {a b : Action}
  {w : World}

/-! ## Rollouts that do not run again -/

/-- A rollout was stopped or is deleted. -/
def RolloutState.IsHalted (state : RolloutState) : Prop :=
  state = .stopped ∨ state = .deleting ∨ state = .deleted

/-- A rollout that was stopped is deleted at most. -/
lemma RolloutState.Leads.isHalted {source dest : RolloutState} {c : Command}
    (h : source.Leads c dest) (hsource : source.IsHalted) : dest.IsHalted := by
  cases h with
  | delete => exact .inr (.inl rfl)
  | purged => exact .inr (.inr rfl)
  | _ => simp [IsHalted] at hsource

lemma RolloutState.IsHalted.next_stop {state : RolloutState} (h : state.IsHalted) :
    state.next .stop = none := by
  rcases h with rfl | rfl | rfl <;> rfl

lemma RolloutState.IsHalted.ne_running {state : RolloutState} (h : state.IsHalted) :
    state ≠ .running := by
  rcases h with rfl | rfl | rfl <;> simp

namespace Store

/-- The rollout does not run again. -/
def Halts (s : Store) (id : RolloutId) : Prop :=
  ∃ r, s.rollout? id = some r ∧ r.state.IsHalted

lemma Halts.step (h : Halts s id) (hstep : Step allowed s s') : Halts s' id := by
  obtain ⟨r, hr, hhalted⟩ := h
  have hchange := hstep.rollout id
  rw [hr] at hchange
  generalize hrow : s'.rollout? id = row at hchange
  cases hchange with
  | same => exact ⟨r, hrow, hhalted⟩
  | ordered _ hobeys => exact ⟨_, hrow, hobeys.leads.isHalted hhalted⟩
  | resolved hrun => exact absurd hrun hhalted.ne_running

/-- A rollout that does not run gets no actions. -/
lemma Halts.action (h : Halts s id) (hs : Sound s) (hstep : Step allowed s s')
    (ha : s'.action? key = some a) (hof : a.rolloutId = id) : ∃ b, s.action? key = some b := by
  have hchange := hstep.action hs key
  rw [ha] at hchange
  generalize s.action? key = row at hchange ⊢
  cases hchange with
  | same | reported | canceled => exact ⟨_, rfl⟩
  | issued _ hr hrun =>
    obtain ⟨r, hrow, hhalted⟩ := h
    rw [hof, hrow] at hr
    exact absurd (Option.some.inj hr ▸ hrun) hhalted.ne_running

end Store

/-- On a trail a rollout that does not run gets no actions. -/
lemma Trail.remained {l : List Action} (h : Trail (Step allowed) s l s') (hs : Sound s)
    (hhalts : Halts s id) (ha : s'.action? key = some a) (hof : a.rolloutId = id) :
    ∃ b, s.action? key = some b ∧ b.rolloutId = id := by
  induction h with
  | nil => exact ⟨a, ha, hof⟩
  | cons hstep htail ih =>
    have ht := hs.step hstep
    obtain ⟨b, hb, hbof⟩ := ih ht (hhalts.step hstep) ha
    obtain ⟨c, hc⟩ := hhalts.action hs hstep hb hbof
    exact ⟨c, hc, (ht.toKeyed.action_rollout_eq hs.toKeyed hb hc).trans hbof⟩

/-! ## The stop -/

namespace Store

/-- No action of the rollout is open, and it does not run. -/
structure Stilled (s : Store) (id : RolloutId) : Prop where
  halts : Halts s id
  actions : ∀ {key a}, s.action? key = some a → a.rolloutId = id → a.status.isOpen = false

lemma Stilled.congr (h : Stilled s id) (hs : SameProgress s s') : Stilled s' id := by
  obtain ⟨⟨r, hr, hhalted⟩, hactions⟩ := h
  refine ⟨⟨r, ?_, hhalted⟩, fun {key a} ha hof => ?_⟩
  · rw [rollout?, hs.rollouts]
    exact hr
  · have hsame : s.action? key = some a := by
      rw [action?, ← hs.actions]
      exact ha
    exact hactions hsame hof

end Store

/-- **Behind a stop that is not refused no action of the rollout is open.** -/
theorem Operator.stop_stills {m : Operator} (h : Tallied s) :
    Operation.Answers s (m.stop id) (fun _ s' => Stilled s' id) s := by
  refine withLease_answers (fun _ _ _ hs hstilled => hstilled.congr hs) fun fence r s' hs hr => ?_
  refine .bind (.nowSeconds fun now => .bind (.ofExcept hs fun r' happly => ?_))
  refine .bind (.mapError (.commit hs fun n s'' hrun => ?_))
  have hs' : Tallied s' := h.congr hs
  have hkey := hs'.rollout_key hr
  have happlied := Rollout.apply_eq_ok happly
  have hid : r'.id = id := (Rollout.id_of_apply happlied).trans hkey.1
  rw [Transaction.stopRollout_relabels hs' (hid ▸ hkey.2)] at hrun
  obtain ⟨-, rfl⟩ := Prod.mk.inj (Except.ok.inj hrun)
  constructor
  · refine ⟨r', ?_, ?_⟩
    · change (s'.withRollout r').rollout? id = some r'
      rw [rollout?_withRollout, if_pos hid.symm]
    · have hleads := (Rollout.apply?_eq_some happlied).1
      generalize r.state = source at hleads
      generalize r'.state = dest at hleads ⊢
      cases hleads <;> exact .inl rfl
  · intro key a ha hof
    obtain ⟨b, -, rfl⟩ := action?_relabelled_eq_some.1 ha
    rw [(relabels_cancel _ _).rolloutId] at hof
    rw [status_cancel, if_pos (hof.trans hid.symm)]
    cases b.status <;> rfl

/-! ## Reports -/

namespace Happening

variable {h : Happening}

/-- A report is applied, unless its device is cut off before. -/
lemma reports {fence : Option Fence} {r : StatusReport} (hreport : h.activity = .report fence r)
    (w : World) : (h.perform w).store = w.store ∨ ∃ now, (h.perform w).store =
      (w.store.commit fence now (Transaction.report r.action r.status r.reportedAt)).2 := by
  unfold perform
  rw [hreport]
  rcases h.limit with _ | _ | limit
  case some.zero => exact .inl rfl
  all_goals
    right
    cases fence with
    | none => exact ⟨0, rfl⟩
    | some f => exact ⟨h.surroundings.clock w.readings, rfl⟩

/-- **A report that changes an action gives it the status and the time of the report.** -/
lemma reported {fence : Option Fence} {r : StatusReport} (hs : Sound w.store)
    (hreport : h.activity = .report fence r) (hb : w.store.action? r.action = some b)
    (ha : (h.perform w).store.action? r.action = some a) (hne : a ≠ b) :
    a = { b with status := r.status, lastStatusAt := r.reportedAt } := by
  obtain ⟨hid, -⟩ := hs.action_key hb
  rcases reports hreport w with heq | ⟨now, heq⟩
  · rw [heq] at ha
    exact absurd (Option.some.inj (ha.symm.trans hb)) hne
  rcases w.store.commit_cases fence now (Transaction.report r.action r.status r.reportedAt) with
    ⟨e, hcommit⟩ | ⟨outcome, s', hrun, hcommit⟩
  · rw [heq, hcommit] at ha
    exact absurd (Option.some.inj (ha.symm.trans hb)) hne
  · rw [heq, hcommit] at ha
    rw [StatusReport.report_relabels hs.tallied] at hrun
    obtain ⟨-, rfl⟩ := Prod.mk.inj (Except.ok.inj hrun)
    rw [action?_relabelled, hb, Option.map_some] at ha
    obtain rfl := Option.some.inj ha
    unfold StatusReport.settle setting at hne ⊢
    split at hne
    · rename_i hset
      rw [if_pos hset]
    · exact absurd rfl hne

end Happening

/-! ## Runs -/

namespace Run

/-- Behind a stop that is not refused no action of the rollout is open. -/
lemma stilled (run : Run) {h : Happening} {m : Operator} {r : Rollout}
    (hstop : h.activity = .stop m id) (hanswer : h.answer? run.world = some (.ok r)) :
    Stilled (run ++ [h]).store id := by
  have hop : h.activity.operation? = some (m.stop id) := by rw [hstop]; rfl
  rw [store_concat]
  exact Happening.of_answers hop (Operator.stop_stills run.sound.tallied) hanswer

lemma halts {run : Run} (h : Halts run.store id) (later : Run) : Halts (run ++ later).store id :=
  (run.continues later).keeps (J := (Halts · id)) run.sound
    (fun _ _ _ hstep hhalts => hhalts.step hstep) h

/-- An action of a rollout that does not run was there before, and if it has changed, then by a
report on it. -/
lemma changed_by_report {run : Run} {h : Happening} (hhalts : Halts run.store id)
    (ha : (run ++ [h]).store.action? key = some a) (hof : a.rolloutId = id) :
    ∃ b, run.store.action? key = some b ∧ b.rolloutId = id ∧ (a ≠ b → b.status.isTerminal = false ∧
      ∃ fence r, h.activity = .report fence r ∧ r.action = key ∧
        a = { b with status := r.status, lastStatusAt := r.reportedAt }) := by
  obtain ⟨b, hb, hbof⟩ := (run.proceeds h).remained run.sound hhalts ha hof
  refine ⟨b, hb, hbof, fun hne => ?_⟩
  obtain ⟨hopen, ⟨fence, r, hreport, rfl⟩ | hheeds⟩ := changed hb ha hne
  · rw [store_concat] at ha
    exact ⟨hopen, fence, r, hreport, rfl, Happening.reported run.sound hreport hb ha hne⟩
  · -- a rollout that was stopped follows no stop
    obtain ⟨r, r', hr, -, hnext⟩ := hheeds.row
    obtain ⟨x, hx, hhalted⟩ := hhalts
    rw [hbof] at hr
    obtain rfl := Option.some.inj (hx.symm.trans (Table.read_eq_some_iff.1 hr))
    rw [hhalted.next_stop] at hnext
    cases hnext

/-- In a run that goes on, a device reports on an action that has not ended, and the action has had
the status and the time of the report since. -/
def SetByReport (run later : Run) (key : ActionId) (a : Action) : Prop :=
  ∃ (before : Run) (h : Happening) (after : Run) (fence : Option Fence) (r : StatusReport)
    (b : Action), later = before ++ h :: after ∧ h.activity = .report fence r ∧ r.action = key ∧
      Table.read (run ++ before).store.actions key = .ok (some b) ∧ b.status.isTerminal = false ∧
      a = { b with status := r.status, lastStatusAt := r.reportedAt }

/-- **A cancel request stands until the device reports.**  However a run goes on behind a stop that
was not refused, every action of the rollout that is still there is to be canceled or has ended, or
it got its status and its time from a report on this very action that came later, when the action
had not ended. -/
theorem canceled_until_reported (run : Run) {h : Happening} {m : Operator} {id : RolloutId}
    {r : Rollout} (hstop : h.activity = .stop m id) (hanswer : h.answer? run.world = some (.ok r))
    (later : Run) {key : ActionId} {a : Action}
    (ha : Table.read (run ++ [h] ++ later).store.actions key = .ok (some a))
    (hof : a.rolloutId = id) :
    a.status = .canceling ∨ a.status.isTerminal = true ∨ SetByReport (run ++ [h]) later key a := by
  have hstilled := run.stilled hstop hanswer
  have hrow : (run ++ [h] ++ later).store.action? key = some a := Table.read_eq_some_iff.1 ha
  clear ha
  induction later using List.reverseRecOn generalizing a with
  | nil =>
    rw [List.append_nil] at hrow
    have hclosed := hstilled.actions hrow hof
    cases hs : a.status <;> simp [hs, ActionStatus.isOpen, ActionStatus.isTerminal] at hclosed ⊢
  | append_singleton later x ih =>
    rw [← List.append_assoc] at hrow
    obtain ⟨b, hb, hbof, hchanged⟩ := changed_by_report (halts hstilled.halts later) hrow hof
    by_cases hne : a = b
    · -- what was so before is still so
      obtain rfl := hne
      rcases ih hof hb with hcanceling | hended | ⟨before, y, after, fence, rep, c, rfl, hrest⟩
      · exact .inl hcanceling
      · exact .inr (.inl hended)
      · exact .inr (.inr ⟨before, y, after ++ [x], fence, rep, c, by simp, hrest⟩)
    · obtain ⟨hopen, fence, rep, hreport, hkey, heq⟩ := hchanged hne
      exact .inr (.inr ⟨later, x, [], fence, rep, b, rfl, hreport, hkey,
        Table.read_eq_some_iff.2 hb, hopen, heq⟩)

/-- The rollout is stopped. -/
def halting : Happening :=
  undisturbed (.stop ⟨none, .standard, false, 30000, "operator"⟩ "r") trivial

/-- A device that was asked to cancel says that it is at work. -/
def belated : Happening := undisturbed (.report none ⟨"r:0001:b", .running, 20⟩) trivial

/-- What the operator is answered. -/
def halt : Rollout := { midway with state := .stopped, updatedAt := 14 }

lemma answer?_halting : halting.answer? threeStages.world = some (.ok halt) := by cbv

/-- The action of the device behind its report. -/
def resumed : Action := { openAction with status := .running, lastStatusAt := 20 }

lemma read_resumed : Table.read (threeStages ++ [halting] ++ [belated]).store.actions "r:0001:b" =
    .ok (some resumed) := by cbv

theorem canceled_until_reported_belated :
    halting.answer? threeStages.world = some (.ok halt) ∧
    SetByReport (threeStages ++ [halting]) [belated] "r:0001:b" resumed := by
  refine ⟨answer?_halting, ?_⟩
  rcases canceled_until_reported threeStages rfl answer?_halting [belated] read_resumed rfl with
    hcanceling | hended | hset
  · cases hcanceling
  · cases hended
  · exact hset

/-- A report may take a cancel request back. -/
theorem not_canceled_for_good :
    ¬ ∀ (run : Run) (h : Happening) (m : Operator) (id : RolloutId) (r : Rollout),
      h.activity = .stop m id → h.answer? run.world = some (.ok r) →
      ∀ (later : Run) (key : ActionId) (a : Action),
        Table.read (run ++ [h] ++ later).store.actions key = .ok (some a) → a.rolloutId = id →
        a.status = .canceling ∨ a.status.isTerminal = true := by
  intro hall
  rcases hall threeStages halting _ "r" halt rfl answer?_halting [belated] "r:0001:b" resumed
    read_resumed rfl with hcanceling | hended
  · cases hcanceling
  · cases hended

end Run

end StagedRollout
