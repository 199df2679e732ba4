/-
# What a stop cancels

A stop goes through the actions of its rollout once, by a listing that is made before the first
write, and asks the devices of the open ones to cancel.  Every group of the rollout is written as
often as it has open actions, each time with the counters of the write before.  Behind the stop
each open action counts as one to be canceled, so what is pending and what has ended stays as it
was, and no other row is touched (`Store.Stopped`).
-/
import StagedRollout.Proofs.Reports

namespace StagedRollout

variable {α : Type}

namespace Table

lemma count_congr {p q : α → Bool} {t : Table α}
    (h : ∀ {key a}, intact? t key = some a → (p a = true ↔ q a = true)) : count p t = count q t :=
  List.countP_congr fun a ha => by
    obtain ⟨key, hkey⟩ := mem_rows.1 ha
    exact h hkey

end Table

/-- The status of an action that is to be canceled if it is open. -/
def ActionStatus.stopped (status : ActionStatus) : ActionStatus :=
  if status.isOpen then .canceling else status

namespace ActionStatus

variable {source dest : ActionStatus}

lemma stopped_ne (h : dest.isOpen = true) : source.stopped ≠ dest := by
  cases source <;> rintro rfl <;> cases h

lemma stopped_eq_canceling_iff : source.stopped = .canceling ↔ source.isTerminal = false := by
  cases source <;> decide

lemma stopped_eq_iff (hopen : dest.isOpen = false) (hne : dest ≠ .canceling) :
    source.stopped = dest ↔ source = dest := by
  unfold stopped
  split
  · rename_i h
    exact iff_of_false hne.symm fun heq => by simp [← heq, h] at hopen
  · exact Iff.rfl

end ActionStatus

/-- The counters of a group whose open actions are to be canceled. -/
def StatusCounts.stopped (c : StatusCounts) : StatusCounts :=
  { c with created := 0, running := 0, download := 0, canceling := c.pending }

namespace Store

variable {s : Store} {r : Rollout} {now : Nat}

/-- What stopping a rollout at a time makes of a store. -/
structure Stopped (r : Rollout) (now : Nat) (s s' : Store) : Prop where
  row : s'.rollouts = Table.put s.rollouts r.id r
  canceled : ∀ {key a}, s.action? key = some a → a.rolloutId = r.id → a.status.isOpen = true →
    s'.action? key = some { a with status := .canceling, lastStatusAt := now }
  actions : ∀ {key}, (∀ a, s.action? key = some a → a.rolloutId = r.id → a.status.isOpen = false) →
    s'.actions.find? key = s.actions.find? key
  counts : ∀ {key g}, s.group? key = some g → g.rolloutId = r.id →
    s'.group? key = some { g with counts := g.counts.stopped }
  groups : ∀ {key}, (∀ g, s.group? key = some g → g.rolloutId ≠ r.id) →
    s'.groups.find? key = s.groups.find? key
  targets : s'.targets = s.targets
  filters : s'.filters = s.filters
  leases : s'.leases = s.leases

/-! ## The actions -/

/-- Open actions of a rollout are to be canceled. -/
def cancel (id : RolloutId) (now : Nat) : Action → Action :=
  setting (fun a => a.rolloutId = id ∧ a.status.isOpen = true) .canceling now

lemma relabels_cancel (id : RolloutId) (now : Nat) : Relabels (cancel id now) :=
  relabels_setting _ _ _

lemma cancel_of_open {id : RolloutId} {a : Action} (hid : a.rolloutId = id)
    (hopen : a.status.isOpen = true) :
    cancel id now a = { a with status := .canceling, lastStatusAt := now } := if_pos ⟨hid, hopen⟩

lemma cancel_eq_self {id : RolloutId} {a : Action}
    (h : a.rolloutId = id → a.status.isOpen = false) : cancel id now a = a :=
  if_neg fun hx => by simp [h hx.1] at hx

end Store

namespace Transaction

open Store

variable {s : Store} {r : Rollout} {id : RolloutId}

/-- The ids of the open actions of a rollout. -/
lemma id_mem_openActions (h : Keyed s) {key : ActionId} {a : Action}
    (ha : s.action? key = some a) :
    a.id ∈ (openActions s id).map (·.id) ↔ a.rolloutId = id ∧ a.status.isOpen = true := by
  obtain ⟨rfl, -⟩ := h.action_key ha
  rw [List.mem_map]
  constructor
  · rintro ⟨b, hb, heq⟩
    have hrow := stored_of_mem_openActions h b hb
    rw [heq] at hrow
    obtain rfl := Option.some.inj (ha.symm.trans hrow)
    obtain ⟨hof, hopen⟩ := List.mem_filter.1 hb
    exact ⟨(h.mem_rolloutActionsOf.1 hof).2, hopen⟩
  · rintro ⟨hof, hopen⟩
    exact ⟨a, List.mem_filter.2 ⟨h.mem_rolloutActionsOf.2 ⟨ha, hof⟩, hopen⟩, rfl⟩

/-- **A stop cancels the open actions of its rollout** and tells how many they were. -/
theorem stopRollout_relabels (h : Tallied s) (hname : NewRollout.isName r.id = true) (now : Nat) :
    stopRollout r now s = .ok ((openActions s r.id).length,
      (s.withRollout r).relabelled (cancel r.id now)) := by
  have hwith : Tallied (s.withRollout r) := h.withRollout hname
  have hstored : (s.withRollout r).rollout? r.id = some r := by simp
  have hread : (liftM ((s.withRollout r).listActions r.id) : Transaction (List Action))
      (s.withRollout r) = .ok (rolloutActionsOf (s.withRollout r) r.id, s.withRollout r) := by
    rw [hwith.listActions_rollout_eq hstored]
    rfl
  have hcancel : cancelEach now (openActions s r.id) (s.withRollout r) =
      .ok ((), (s.withRollout r).relabelled
        (setting (fun b => b.id ∈ (openActions s r.id).map (·.id)) .canceling now)) :=
    cancelEach_relabels hwith (nodup_openActions hwith.toKeyed r.id)
      (stored_of_mem_openActions hwith.toKeyed)
  have hlisted : (s.withRollout r).relabelled
      (setting (fun b => b.id ∈ (openActions s r.id).map (·.id)) .canceling now) =
      (s.withRollout r).relabelled (cancel r.id now) :=
    relabelled_congr fun ha => if_congr (id_mem_openActions h.toKeyed ha) rfl rfl
  rw [stopRollout, bind_run (putRollout_run r s), cancelOpen, bind_run (get_run _),
    bind_run hread]
  change (cancelEach now (openActions s r.id) >>= fun _ => pure _) (s.withRollout r) = _
  rw [bind_run hcancel, hlisted]
  rfl

lemma length_openActions (s : Store) (id : RolloutId) :
    (openActions s id).length =
      Table.count (fun a => a.rolloutId == id && a.status.isOpen) s.actions := by
  rw [openActions, rolloutActionsOf, List.filter_filter, ← List.countP_eq_length_filter,
    Table.count]
  exact List.countP_congr fun a _ => by rw [Bool.and_comm]

end Transaction

/-! ## The counters -/

lemma Store.status_cancel (id : RolloutId) (now : Nat) (a : Action) :
    (cancel id now a).status = if a.rolloutId = id then a.status.stopped else a.status := by
  unfold cancel setting ActionStatus.stopped
  split_ifs <;> simp_all

lemma StatusCounts.get_stopped (c : StatusCounts) (status : ActionStatus) :
    c.stopped.get status =
      if status.isOpen then 0 else if status = .canceling then c.pending else c.get status := by
  cases status <;> rfl

namespace Store

variable {s : Store} {r : Rollout} {now : Nat}

lemma pending_countsOf (s : Store) (id : GroupId) :
    (s.countsOf id).pending =
      Table.count (fun a => a.groupId == id && !a.status.isTerminal) s.actions := by
  simp only [StatusCounts.pending, countsOf, StatusCounts.ofGet, tally, Table.count]
  induction Table.rows s.actions with
  | nil => rfl
  | cons a l ih =>
    rw [List.countP_cons, List.countP_cons, List.countP_cons, List.countP_cons, List.countP_cons,
      ← ih]
    -- the action is pending in one way at most
    cases a.groupId == id <;> cases a.status <;>
      simp [ActionStatus.isTerminal] <;> omega

/-- An action belongs to the rollout of its group. -/
lemma Keyed.rolloutId_eq (h : Keyed s) {k : ActionId} {a : Action} {g : RolloutGroup}
    (ha : s.action? k = some a) (hg : s.group? a.groupId = some g) :
    a.rolloutId = g.rolloutId := by
  obtain ⟨g', hg', hrollout, -⟩ := h.action_group ha
  rw [← hrollout, Option.some.inj (hg.symm.trans hg')]

/-- Which actions of a group have a status behind a stop, by what they were before. -/
lemma tally_cancel {id : RolloutId} {key : GroupId} {status : ActionStatus}
    {p : ActionStatus → Bool} (hp : ∀ {k a}, s.action? k = some a → a.groupId = key →
      ((cancel id now a).status = status ↔ p a.status = true)) :
    (s.relabelled (cancel id now)).tally key status =
      Table.count (fun a => a.groupId == key && p a.status) s.actions := by
  rw [tally_relabelled]
  refine Table.count_congr fun {k a} ha => ?_
  simp only [(relabels_cancel id now).groupId, Bool.and_eq_true, beq_iff_eq]
  exact and_congr_right fun hkey => hp ha hkey

/-- **An open action of the rollout counts as one to be canceled**, and every other action as what
it was. -/
lemma Tallied.countsOf_cancel (h : Tallied s) (id : RolloutId) (now : Nat) {key : GroupId}
    {g : RolloutGroup} (hg : s.group? key = some g) :
    (s.relabelled (cancel id now)).countsOf key =
      if g.rolloutId = id then g.counts.stopped else g.counts := by
  refine StatusCounts.ext_get fun status => ?_
  rw [get_countsOf]
  have hsame : Table.count (fun a => a.groupId == key && a.status == status) s.actions =
      g.counts.get status := by
    rw [h.counted hg, get_countsOf, tally]
  have hof : ∀ {k a}, s.action? k = some a → a.groupId = key → a.rolloutId = g.rolloutId :=
    fun ha hkey => h.rolloutId_eq ha (hkey ▸ hg)
  split
  · rename_i hid
    have hstatus : ∀ {k a}, s.action? k = some a → a.groupId = key →
        (cancel id now a).status = a.status.stopped := fun ha hkey => by
      rw [status_cancel, if_pos ((hof ha hkey).trans hid)]
    rw [StatusCounts.get_stopped]
    split_ifs with hopen hcanceling
    · rw [tally_cancel (p := fun _ => false) fun ha hkey => ?_, Table.count, List.countP_eq_zero]
      · simp
      · rw [hstatus ha hkey]
        exact iff_of_false (ActionStatus.stopped_ne hopen) Bool.false_ne_true
    · rw [tally_cancel (p := fun st => !st.isTerminal) fun ha hkey => ?_, h.counted hg,
        pending_countsOf]
      rw [hstatus ha hkey, hcanceling, ActionStatus.stopped_eq_canceling_iff, Bool.not_eq_true']
    · rw [tally_cancel (p := fun st => st == status) fun ha hkey => ?_, hsame]
      rw [hstatus ha hkey, beq_iff_eq,
        ActionStatus.stopped_eq_iff (Bool.not_eq_true _ ▸ hopen) hcanceling]
  · rename_i hid
    rw [tally_cancel (p := fun st => st == status) fun ha hkey => ?_, hsame]
    rw [status_cancel, if_neg fun hx => hid ((hof ha hkey).symm.trans hx), beq_iff_eq]

/-! ## The rows -/

/-- **What a stop leaves.** -/
theorem Tallied.stopped (h : Tallied s) (hname : NewRollout.isName r.id = true) (now : Nat) :
    Stopped r now s ((s.withRollout r).relabelled (cancel r.id now)) := by
  have hwith : Tallied (s.withRollout r) := h.withRollout hname
  have hcounts := fun {key g} (hg : s.group? key = some g) =>
    hwith.countsOf_cancel r.id now hg
  refine ⟨rfl, fun {key a} ha hof hopen => ?_, fun {key} hkept => ?_, fun {key g} hg hof => ?_,
    fun {key} hkept => ?_, rfl, rfl, rfl⟩
  · rw [action?_relabelled, action?_withRollout, ha, Option.map_some, cancel_of_open hof hopen]
  · refine (Table.find?_map _ s.actions key).trans ?_
    cases hrow : s.actions.find? key with
    | none => rfl
    | some row =>
      obtain ⟨a, rfl⟩ := h.actions_intact key row hrow
      rw [Option.map_some, Row.map, cancel_eq_self (hkept a (Table.intact?_eq_some_iff.2 hrow))]
  · rw [group?_relabelled, group?_withRollout, hg, Option.map_some, (h.group_key hg).1,
      hcounts hg, if_pos hof]
  · refine (Table.find?_map _ s.groups key).trans ?_
    cases hrow : s.groups.find? key with
    | none => rfl
    | some row =>
      obtain ⟨g, rfl⟩ := h.groups_intact key row hrow
      have hg : s.group? key = some g := Table.intact?_eq_some_iff.2 hrow
      have hsame : ((s.withRollout r).relabelled (cancel r.id now)).countsOf g.id = g.counts := by
        rw [(h.group_key hg).1, hcounts hg, if_neg (hkept g hg)]
      exact congrArg (fun counts => some (Row.intact { g with counts := counts })) hsame

/-- A group keeps as many pending actions as it had, and as many that have ended. -/
lemma Stopped.totals {s' : Store} (h : Stopped r now s s') {key : GroupId} {g g' : RolloutGroup}
    (hg : s.group? key = some g) (hg' : s'.group? key = some g') :
    g'.counts.pending = g.counts.pending ∧ g'.counts.terminal = g.counts.terminal := by
  by_cases hof : g.rolloutId = r.id
  · obtain rfl := Option.some.inj ((h.counts hg hof).symm.trans hg')
    exact ⟨Nat.zero_add _, rfl⟩
  · have hrow : s'.groups.find? key = s.groups.find? key :=
      h.groups fun x hx => Option.some.inj (hg.symm.trans hx) ▸ hof
    rw [group?, Table.intact?_eq_bind, hrow, ← Table.intact?_eq_bind, ← group?, hg] at hg'
    rw [Option.some.inj hg']
    exact ⟨rfl, rfl⟩

end Store

open Store

namespace Run

/-- **A stop cancels exactly the open actions of its rollout.**  Unless the stop is fenced off, in
which case nothing happens, it tells how many actions of the rollout were open; these are to be
canceled from then on, and nothing else changes but the row of the rollout, which is the one that
is given, and the counters of its groups, of which what is pending and what has ended stay.  The
rollout may be any that has a name, whatever is stored for it. -/
theorem stop_cancels_open (run : Run) {r : Rollout} (hname : NewRollout.isName r.id = true)
    (now : Nat) (fence : Option Fence) (clock : Nat) :
    (∀ e, checkFence fence clock run.store = .error e →
      run.store.commit fence clock (Transaction.stopRollout r now) = (.error e, run.store)) ∧
    (checkFence fence clock run.store = .ok () →
      ∃ s', run.store.commit fence clock (Transaction.stopRollout r now) =
          (.ok (Table.count (fun a => a.rolloutId == r.id && a.status.isOpen) run.store.actions),
            s') ∧
        Stopped r now run.store s' ∧
        ∀ key g g', run.store.group? key = some g → s'.group? key = some g' →
          g'.counts.pending = g.counts.pending ∧ g'.counts.terminal = g.counts.terminal) := by
  have htallied : Tallied run.store := run.sound.tallied
  have hstopped := htallied.stopped hname now
  refine ⟨fun e he => by simp only [Store.commit, he],
    fun hok => ⟨_, ?_, hstopped, fun key g g' hg hg' => hstopped.totals hg hg'⟩⟩
  simp only [Store.commit, hok, Transaction.stopRollout_relabels htallied hname,
    Transaction.length_openActions]

/-! ### A stop between two stages -/

/-- A rollout goes on to its next stage as soon as half of a stage has ended well. -/
def halves : NewRollout := { pairFirst with successCondition := .threshold 50 }

/-- One device of the first stage is done, the other one is at work, and the second stage has
begun. -/
def halfDone : Run :=
  [registration "a", registration "b", registration "c",
    undisturbed (.create ⟨none, .standard, false, 30000, "operator"⟩ .ofStore halves)
      Resolver.ofStore_calm,
    cycle 5, undisturbed (.report none ⟨"r:0000:a", .finishedSuccess, 6⟩) trivial,
    undisturbed (.report none ⟨"r:0000:b", .running, 7⟩) trivial, cycle 8]

/-- The rollout is stopped. -/
def halted : Rollout := { midway with totalTargets := 3, state := .stopped, updatedAt := 9 }

/-- Two of three actions are open. -/
theorem stop_cancels_open_halfDone :
    NewRollout.isName halted.id = true ∧ ∃ s',
      halfDone.store.commit none 0 (Transaction.stopRollout halted 9) = (.ok 2, s') ∧
      Stopped halted 9 halfDone.store s' := by
  have hname : NewRollout.isName halted.id = true := by decide
  have hcount : Table.count (fun a => a.rolloutId == halted.id && a.status.isOpen)
      halfDone.store.actions = 2 := by cbv
  obtain ⟨s', hcommit, hstopped, -⟩ := (stop_cancels_open halfDone hname 9 none 0).2 rfl
  exact ⟨hname, s', hcount ▸ hcommit, hstopped⟩

end Run

end StagedRollout
