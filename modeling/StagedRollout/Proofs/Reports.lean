/-
# Reports in any order

Devices report when they like, so reports arrive in any order.  Two reports for one group move the
same counters, each down from where an action was and up to where it is, and such moves do not
commute on counters as such.  They do on stores, as the counters of a group are those of its
actions: a report is a change of one row (`StatusReport.settle`), and changes of different rows
commute.  The answer to a report depends on this row alone.
-/
import StagedRollout.Proofs.Api.Forwarding
import StagedRollout.Proofs.Invariants
import StagedRollout.Proofs.Store.Relabelled

namespace StagedRollout

open Store

/-! ## One report -/

namespace StatusReport

/-- Whether a report changes an action. -/
def Settles (r : StatusReport) (a : Action) : Prop :=
  a.id = r.action ∧ a.status ≠ r.status ∧ a.status.isTerminal = false

instance (r : StatusReport) : DecidablePred r.Settles := fun a =>
  inferInstanceAs (Decidable (a.id = r.action ∧ a.status ≠ r.status ∧ a.status.isTerminal = false))

/-- What a report makes of an action. -/
def settle (r : StatusReport) : Action → Action := setting r.Settles r.status r.reportedAt

/-- The answer to a report, by the action that it is about. -/
def answer (r : StatusReport) : Option Action → ReportOutcome
  | none => .unknown
  | some a =>
    if a.status = r.status then .unchanged a
    else if a.status.isTerminal then .rejected a
    else .applied { a with status := r.status, lastStatusAt := r.reportedAt } a.status

variable {r r' : StatusReport} {s : Store}

lemma relabels_settle (r : StatusReport) : Relabels r.settle := relabels_setting _ _ _

lemma settle_of_ne {a : Action} (h : a.id ≠ r.action) : r.settle a = a := if_neg fun hx => h hx.1

/-- Reports for different actions commute on actions. -/
lemma settle_comm (h : r.action ≠ r'.action) (a : Action) :
    r.settle (r'.settle a) = r'.settle (r.settle a) := by
  by_cases ha : a.id = r.action
  · have hid : (r.settle a).id = r.action := (r.relabels_settle.id a).trans ha
    rw [settle_of_ne fun hx => h (ha.symm.trans hx), settle_of_ne fun hx => h (hid.symm.trans hx)]
  · have hid : (r'.settle a).id ≠ r.action := fun hx => ha ((r'.relabels_settle.id a).symm.trans hx)
    rw [settle_of_ne ha, settle_of_ne hid]

/-- A report that changes no action changes nothing. -/
lemma relabelled_settle_eq_self (h : Tallied s)
    (hno : ∀ a, s.action? r.action = some a → ¬ r.Settles a) : s.relabelled r.settle = s := by
  refine h.relabelled_eq_self fun {id a} ha => if_neg fun hset => hno a ?_ hset
  rw [← hset.1, (h.action_key ha).1]
  exact ha

lemma withStatus_eq_settle (h : Tallied s) {a : Action} (ha : s.action? r.action = some a)
    (hset : r.Settles a) : s.withStatus a r.status r.reportedAt = s.relabelled r.settle := by
  rw [h.withStatus_eq (hset.1 ▸ ha)]
  refine relabelled_congr fun {id b} hb => ?_
  by_cases heq : b.id = a.id
  · -- under one id there is one action
    have hkey := (h.action_key hb).1
    have hsame : a = b := by
      rw [← hset.1, ← heq, hkey, hb] at ha
      exact (Option.some.inj ha).symm
    rw [settle, setting, setting, if_pos heq, if_pos (hsame ▸ hset)]
  · rw [settle, setting, setting, if_neg heq, if_neg fun hx => heq (hx.1.trans hset.1.symm)]

/-- **A report changes one row**, and is answered by what stood there. -/
lemma report_relabels (h : Tallied s) (r : StatusReport) :
    Transaction.report r.action r.status r.reportedAt s =
      .ok (r.answer (s.action? r.action), s.relabelled r.settle) := by
  rw [Transaction.report_run h.toKeyed]
  cases ha : s.action? r.action with
  | none =>
    rw [relabelled_settle_eq_self h fun a hsome => by cases ha.symm.trans hsome]
    rfl
  | some a =>
    have hrow : ∀ b, s.action? r.action = some b → b = a := fun b hb =>
      (Option.some.inj (ha.symm.trans hb)).symm
    dsimp only [answer]
    split_ifs with hsame hended
    · rw [relabelled_settle_eq_self h fun b hb hset => hset.2.1 (hrow b hb ▸ hsame)]
    · rw [relabelled_settle_eq_self h fun b hb hset => by simp [hrow b hb, hended, Settles] at hset]
    · have hid := (h.action_key ha).1
      rw [withStatus_eq_settle h ha ⟨hid, hsame, Bool.not_eq_true _ ▸ hended⟩]

/-! ## Many reports -/

/-- What reports make of an action, one after the other. -/
def settleAll (reports : List StatusReport) (a : Action) : Action :=
  reports.foldl (fun b r => r.settle b) a

/-- **Reports for different actions may come in any order.** -/
lemma settleAll_perm {order reports : List StatusReport} (horder : order.Perm reports)
    (hdistinct : (reports.map (·.action)).Nodup) : settleAll order = settleAll reports := by
  funext a
  have hdistinct' : (order.map (·.action)).Nodup := (horder.map _).nodup_iff.2 hdistinct
  refine horder.foldl_eq' (fun x hx y hy b => ?_) a
  by_cases heq : x = y
  · rw [heq]
  · exact settle_comm (fun hxy => heq (List.inj_on_of_nodup_map hdistinct' hx hy hxy.symm)) b

variable {env : Surroundings} {w : World}

lemma apply_settles (h : Tallied w.store) (r : StatusReport) :
    (ExceptT.run (r.apply none)).run env w =
      (.ok (r.answer (w.store.action? r.action)),
        { w with store := w.store.relabelled r.settle }) := by
  have hcommit : w.store.commit none 0 (Transaction.report r.action r.status r.reportedAt) =
      (.ok (r.answer (w.store.action? r.action)), w.store.relabelled r.settle) := by
    simp only [Store.commit, checkFence, report_relabels h]
  have hrun : (ExceptT.run (r.apply none)).run env w =
      let after := w.store.commit none 0 (Transaction.report r.action r.status r.reportedAt)
      (after.1.mapError .persistence, { w with store := after.2 }) := by
    rw [StatusReport.apply, Operation.mapError, ExceptT.run_adapt]
    rfl
  rw [hrun, hcommit]
  rfl

/-- Reports for different actions are answered by what is stored in front of all of them. -/
lemma mapM_settles (h : Tallied w.store) {reports : List StatusReport}
    (hdistinct : (reports.map (·.action)).Nodup) :
    (ExceptT.run (reports.mapM (StatusReport.apply none))).run env w =
      (.ok (reports.map fun r => r.answer (w.store.action? r.action)),
        { w with store := w.store.relabelled (settleAll reports) }) := by
  induction reports generalizing w with
  | nil =>
    have hnone : w.store.relabelled (settleAll []) = w.store := h.relabelled_eq_self fun _ => rfl
    rw [hnone]
    rfl
  | cons r reports ih =>
    obtain ⟨hne, hrest⟩ := nodup_keys_cons hdistinct
    have hlater := ih (w := { w with store := w.store.relabelled r.settle })
      (h.relabelled r.relabels_settle) hrest
    -- the other reports are about other rows
    have hanswers :
        (reports.map fun x => x.answer ((w.store.relabelled r.settle).action? x.action)) =
        reports.map fun x => x.answer (w.store.action? x.action) := by
      refine List.map_congr_left fun x hx => congrArg x.answer ?_
      rw [action?_relabelled]
      cases ha : w.store.action? x.action with
      | none => rfl
      | some a =>
        have hid : a.id ≠ r.action := (h.action_key ha).1 ▸ hne x hx
        rw [Option.map_some, settle_of_ne hid]
    rw [hanswers, relabelled_relabelled] at hlater
    rw [List.mapM_cons, ExceptT.run_bind, Program.run_bind, apply_settles h]
    change (ExceptT.run (reports.mapM (StatusReport.apply none) >>= _)).run env _ = _
    rw [ExceptT.run_bind, Program.run_bind, hlater]
    rfl

end StatusReport

/-- The aggregator leaves what its reports make of the actions. -/
lemma Mailbox.foldl_reported {s : Store} (h : Tallied s) (reports : List StatusReport) :
    reports.foldl reported s = s.relabelled (StatusReport.settleAll reports) := by
  induction reports generalizing s with
  | nil => exact (h.relabelled_eq_self fun _ => rfl).symm
  | cons r reports ih =>
    have hfirst : reported s r = s.relabelled r.settle := by
      simp only [reported, Store.commit, checkFence, StatusReport.report_relabels h]
    rw [List.foldl_cons, hfirst, ih (h.relabelled r.relabels_settle), relabelled_relabelled]
    rfl

namespace Run

/-- **Reports for different actions commute.**  In whatever order they are applied, each of them is
answered as if it were the only one, and the store behind them is the same, whether somebody waits
for the answers or the aggregator takes the reports from its mailbox. -/
theorem reports_commute (run : Run) (env : Surroundings) {reports : List StatusReport}
    (hdistinct : (reports.map (·.action)).Nodup) :
    ∃ (answer : StatusReport → ReportOutcome) (s : Store),
      (∀ r ∈ reports, ((ExceptT.run (r.apply none)).run env run.world).1 = .ok (answer r)) ∧
      ∀ order : List StatusReport, order.Perm reports →
        (ExceptT.run (order.mapM (StatusReport.apply none))).run env run.world =
          (.ok (order.map answer), { run.world with store := s }) ∧
        (Mailbox.applyAll none order).run env run.world =
          ((), { run.world with store := s }) := by
  have htallied : Tallied run.world.store := run.sound.tallied
  refine ⟨fun r => r.answer (run.world.store.action? r.action),
    run.world.store.relabelled (StatusReport.settleAll reports), fun r _ => ?_,
    fun order horder => ⟨?_, ?_⟩⟩
  · rw [StatusReport.apply_settles htallied]
  · rw [StatusReport.mapM_settles htallied ((horder.map _).nodup_iff.2 hdistinct),
      StatusReport.settleAll_perm horder hdistinct]
  · rw [Mailbox.applyAll_run, Mailbox.foldl_reported htallied,
      StatusReport.settleAll_perm horder hdistinct]

/-! ### Reports for one group -/

/-- A rollout in two stages, the first of which has two devices. -/
def pairFirst : NewRollout := { plan with groups := .explicit [["a", "b"], ["c"]] }

/-- Both devices of the first stage have an action. -/
def pairAtWork : Run :=
  [registration "a", registration "b", registration "c",
    undisturbed (.create ⟨none, .standard, false, 30000, "operator"⟩ .ofStore pairFirst)
      Resolver.ofStore_calm,
    cycle 5]

/-- One of two devices of a group gets on, the other one fails, and a third report is about an
action that is not there.  From back to front the reports come to the same. -/
theorem reports_commute_pairAtWork :
    let first : StatusReport := ⟨"r:0000:a", .download, 6⟩
    let second : StatusReport := ⟨"r:0000:b", .finishedError, 7⟩
    let stray : StatusReport := ⟨"r:0001:c", .running, 8⟩
    [first.action, second.action, stray.action].Nodup ∧
    ∃ answers s, (ExceptT.run ([first, second, stray].mapM (StatusReport.apply none))).run quiet
        pairAtWork.world = (.ok answers, { pairAtWork.world with store := s }) ∧
      (Mailbox.applyAll none [stray, second, first]).run quiet pairAtWork.world =
        ((), { pairAtWork.world with store := s }) := by
  intro first second stray
  have hdistinct : ([first, second, stray].map (·.action)).Nodup := by decide
  obtain ⟨answer, s, -, hsame⟩ := reports_commute pairAtWork quiet hdistinct
  exact ⟨hdistinct, _, s, (hsame _ (.refl _)).1, (hsame _ (List.reverse_perm _)).2⟩

end Run

end StagedRollout
