/-
# New statuses for many actions

A report and a cancel request change what stands in the rows of actions, and the groups of these
actions count anew.  As the counters of a group follow from its actions, the store behind any
number of such changes is a function of the rows: `f` is applied to the actions and every group
counts what is there then (`Store.relabelled`).  So changes come one after the other as functions
do (`relabelled_relabelled`), and those that commute on actions commute on stores, however often
they move the same counters.
-/
import StagedRollout.Proofs.Store.Balanced

namespace StagedRollout

variable {α : Type}

/-! ## Tables whose values are mapped -/

/-- The row with another value, unless it is damaged. -/
def Row.map (f : α → α) : Row α → Row α
  | .intact a => .intact (f a)
  | .damaged reason => .damaged reason

namespace Table

/-- The table with `f` of each value. -/
def map (f : α → α) (t : Table α) : Table α :=
  ⟨t.entries.map fun e => (e.1, e.2.map f), List.pairwise_map.2 t.ascending⟩

lemma find?_map (f : α → α) (t : Table α) (key : String) :
    (map f t).find? key = (t.find? key).map (Row.map f) := by
  change OrderedMap.lookup key (t.entries.map fun e => (e.1, e.2.map f)) =
    (OrderedMap.lookup key t.entries).map (Row.map f)
  induction t.entries with
  | nil => rfl
  | cons e l ih =>
    simp only [List.map_cons, OrderedMap.lookup]
    split
    · rfl
    · exact ih

@[simp] lemma intact?_map (f : α → α) (t : Table α) (key : String) :
    intact? (map f t) key = (intact? t key).map f := by
  unfold intact?
  rw [find?_map]
  rcases t.find? key with _ | _ | _ <;> rfl

lemma rows_map (f : α → α) (t : Table α) : rows (map f t) = (rows t).map f := by
  rw [rows, rows, map, List.filterMap_map, List.map_filterMap]
  refine List.filterMap_congr fun e _ => ?_
  simp only [Function.comp_apply]
  cases e.2 <;> rfl

lemma count_map (p : α → Bool) (f : α → α) (t : Table α) :
    count p (map f t) = count (p ∘ f) t := by
  rw [count, rows_map, List.countP_map, count]

lemma map_map (f g : α → α) (t : Table α) : map g (map f t) = map (g ∘ f) t := by
  refine OrderedMap.ext_find? fun key => ?_
  simp only [find?_map, Option.map_map]
  congr 1
  funext row
  cases row <;> rfl

/-- Only the values that are there matter. -/
lemma map_congr {f g : α → α} {t : Table α}
    (h : ∀ {key a}, intact? t key = some a → f a = g a) : map f t = map g t := by
  refine OrderedMap.ext_find? fun key => ?_
  rw [find?_map, find?_map]
  rcases hrow : t.find? key with _ | _ | _
  · rfl
  · simp only [Option.map_some, Row.map, h (intact?_eq_some_iff.2 hrow)]
  · rfl

lemma map_eq_self {f : α → α} {t : Table α}
    (h : ∀ {key a}, intact? t key = some a → f a = a) : map f t = t := by
  refine OrderedMap.ext_find? fun key => ?_
  rw [find?_map]
  rcases hrow : t.find? key with _ | _ | _
  · rfl
  · simp only [Option.map_some, Row.map, h (intact?_eq_some_iff.2 hrow)]
  · rfl

/-- A table in which one value is replaced. -/
lemma put_eq_map {f : α → α} {t : Table α} {key : String} {a : α}
    (ha : intact? t key = some a)
    (hothers : ∀ {k b}, intact? t k = some b → k ≠ key → f b = b) :
    put t key (f a) = map f t := by
  refine OrderedMap.ext_find? fun k => ?_
  rw [put, OrderedMap.find?_insert, find?_map]
  split
  · rename_i hk
    rw [hk, intact?_eq_some_iff.1 ha]
    rfl
  · rename_i hk
    rcases hrow : t.find? k with _ | _ | _
    · rfl
    · simp only [Option.map_some, Row.map, hothers (intact?_eq_some_iff.2 hrow) hk]
    · rfl

lemma Undamaged.map {t : Table α} (h : Undamaged t) (f : α → α) : Undamaged (Table.map f t) := by
  intro key row hrow
  rw [find?_map] at hrow
  obtain ⟨row', hrow', rfl⟩ := Option.map_eq_some_iff.1 hrow
  obtain ⟨a, rfl⟩ := h key row' hrow'
  exact ⟨f a, rfl⟩

end Table

/-! ## Counters that are right -/

/-- The counters with given values. -/
def StatusCounts.ofGet (f : ActionStatus → Nat) : StatusCounts :=
  ⟨f .created, f .running, f .download, f .canceling, f .canceled, f .finishedSuccess,
    f .finishedError⟩

namespace Store

variable {s : Store} {f g : Action → Action}

/-- What a group counts whose counters agree with the actions. -/
def countsOf (s : Store) (id : GroupId) : StatusCounts := .ofGet (s.tally id)

lemma get_countsOf (s : Store) (id : GroupId) (status : ActionStatus) :
    (s.countsOf id).get status = s.tally id status := by
  cases status <;> rfl

/-- Rows belong together, and groups count their actions rightly. -/
structure Tallied (s : Store) : Prop extends Keyed s where
  counted : ∀ {id g}, s.group? id = some g → g.counts = s.countsOf id

lemma Sound.tallied (h : Sound s) : Tallied s where
  toKeyed := h.toKeyed
  counted hg := StatusCounts.ext_get fun status => by
    rw [h.counted hg status, get_countsOf]

lemma Tallied.balanced (h : Tallied s) : Balanced s where
  group_key hg := (h.group_key hg).1
  action_key ha := (h.action_key ha).1
  counted hg status := by rw [h.counted hg, get_countsOf]

/-- Nothing but rollouts, groups and actions matters. -/
lemma Tallied.congr {s' : Store} (h : Tallied s) (hs : SameProgress s s') : Tallied s' := by
  obtain ⟨hr, hg, ha⟩ := hs
  cases s
  cases s'
  subst hr hg ha
  exact { h with }

lemma Tallied.withRollout {r : Rollout} (h : Tallied s) (hname : NewRollout.isName r.id = true) :
    Tallied (s.withRollout r) where
  toKeyed := h.toKeyed.withRollout hname
  counted := h.counted

/-! ## Actions that are relabelled -/

/-- A change of an action that leaves it in its place. -/
structure Relabels (f : Action → Action) : Prop where
  id : ∀ a, (f a).id = a.id
  rolloutId : ∀ a, (f a).rolloutId = a.rolloutId
  groupId : ∀ a, (f a).groupId = a.groupId
  targetId : ∀ a, (f a).targetId = a.targetId

/-- The store with `f` of each action, where every group counts its actions anew. -/
def relabelled (s : Store) (f : Action → Action) : Store :=
  let s' := { s with actions := Table.map f s.actions }
  { s' with groups := Table.map (fun g => { g with counts := s'.countsOf g.id }) s.groups }

@[simp] lemma action?_relabelled (s : Store) (f : Action → Action) (id : ActionId) :
    (s.relabelled f).action? id = (s.action? id).map f :=
  Table.intact?_map f s.actions id

lemma action?_relabelled_eq_some {id : ActionId} {a : Action} :
    (s.relabelled f).action? id = some a ↔ ∃ old, s.action? id = some old ∧ f old = a := by
  rw [action?_relabelled, Option.map_eq_some_iff]

lemma tally_relabelled (s : Store) (f : Action → Action) (id : GroupId) (status : ActionStatus) :
    (s.relabelled f).tally id status =
      Table.count (fun a => (f a).groupId == id && (f a).status == status) s.actions :=
  Table.count_map _ f s.actions

@[simp] lemma group?_relabelled (s : Store) (f : Action → Action) (id : GroupId) :
    (s.relabelled f).group? id =
      (s.group? id).map fun g => { g with counts := (s.relabelled f).countsOf g.id } :=
  Table.intact?_map _ s.groups id

lemma group?_relabelled_eq_some {id : GroupId} {g : RolloutGroup} :
    (s.relabelled f).group? id = some g ↔ ∃ old, s.group? id = some old ∧
      { old with counts := (s.relabelled f).countsOf old.id } = g := by
  rw [group?_relabelled, Option.map_eq_some_iff]

/-- **Relabelled stores are relabelled as functions are composed.** -/
theorem relabelled_relabelled (s : Store) (f g : Action → Action) :
    (s.relabelled f).relabelled g = s.relabelled (g ∘ f) := by
  unfold relabelled
  simp only [Table.map_map]
  rfl

/-- Only the actions that are there matter. -/
lemma relabelled_congr (h : ∀ {id a}, s.action? id = some a → f a = g a) :
    s.relabelled f = s.relabelled g := by
  unfold relabelled
  rw [Table.map_congr h]

namespace Tallied

variable (h : Tallied s)
include h

/-- A store in which no action changes is what it was. -/
lemma relabelled_eq_self (hf : ∀ {id a}, s.action? id = some a → f a = a) :
    s.relabelled f = s := by
  have hactions : Table.map f s.actions = s.actions := Table.map_eq_self hf
  unfold Store.relabelled
  simp only [hactions]
  rw [Table.map_eq_self fun {key g} hg => ?_]
  obtain ⟨rfl, -⟩ := h.group_key hg
  rw [← h.counted hg]

lemma relabelled (hf : Relabels f) : Tallied (s.relabelled f) where
  rollouts_intact := h.rollouts_intact
  groups_intact := h.groups_intact.map _
  actions_intact := h.actions_intact.map _
  rollout_key := h.rollout_key
  group_key := by
    intro id g hg
    obtain ⟨old, hold, rfl⟩ := group?_relabelled_eq_some.1 hg
    exact ⟨(h.group_key hold).1, (h.group_key hold).2.id_eq, (h.group_key hold).2.index_lt⟩
  group_rollout := by
    intro id g hg
    obtain ⟨old, hold, rfl⟩ := group?_relabelled_eq_some.1 hg
    exact h.group_rollout (g := old) hold
  action_key := by
    intro id a ha
    obtain ⟨old, hold, rfl⟩ := action?_relabelled_eq_some.1 ha
    rw [hf.id, hf.groupId, hf.targetId]
    exact h.action_key hold
  action_group := by
    intro id a ha
    obtain ⟨old, hold, rfl⟩ := action?_relabelled_eq_some.1 ha
    obtain ⟨g, hg, hrollout, hmem⟩ := h.action_group hold
    refine ⟨_, group?_relabelled_eq_some.2 ⟨g, (hf.groupId old).symm ▸ hg, rfl⟩, ?_, ?_⟩
    · rw [hf.rolloutId]
      exact hrollout
    · rw [hf.targetId]
      exact hmem
  counted := by
    intro id g hg
    obtain ⟨old, hold, rfl⟩ := group?_relabelled_eq_some.1 hg
    rw [(h.group_key hold).1]

end Tallied

/-! ## A new status for some actions -/

/-- The action with a new status if it has a property. -/
def setting (p : Action → Prop) [DecidablePred p] (status : ActionStatus) (now : Nat)
    (a : Action) : Action :=
  if p a then { a with status := status, lastStatusAt := now } else a

section

variable (p q : Action → Prop) [DecidablePred p] [DecidablePred q] (status : ActionStatus)
  (now : Nat)

lemma relabels_setting : Relabels (setting p status now) := by
  constructor <;> intro a <;> unfold setting <;> split <;> rfl

variable {p q}

/-- A status that is given twice is given to all that get it once. -/
lemma setting_comp_setting (hp : ∀ a, p (setting q status now a) ↔ p a) :
    setting p status now ∘ setting q status now = setting (fun a => p a ∨ q a) status now := by
  funext a
  rw [Function.comp_apply]
  by_cases hpa : p a
  · rw [setting, if_pos ((hp a).2 hpa)]
    by_cases hqa : q a <;> simp only [setting, hpa, hqa, if_true, if_false, or_true, or_false]
  · rw [setting, if_neg fun hx => hpa ((hp a).1 hx)]
    simp only [setting, hpa, false_or]

end

namespace Tallied

variable {a : Action} (h : Tallied s) (ha : s.action? a.id = some a) (status : ActionStatus)
  (now : Nat)
include h ha

lemma actions_withStatus : (s.withStatus a status now).actions =
    Table.map (setting (fun b => b.id = a.id) status now) s.actions := by
  obtain ⟨g, hg, -⟩ := h.action_group ha
  have hrow : setting (fun b => b.id = a.id) status now a =
      { a with status := status, lastStatusAt := now } := if_pos rfl
  rw [Store.withStatus_eq hg]
  change Table.put s.actions a.id _ = _
  rw [← hrow]
  exact Table.put_eq_map ha fun {k b} hb hne =>
    if_neg fun heq => hne ((h.action_key hb).1.symm.trans heq)

/-- The counters behind the write are right, and so they are those that are counted anew. -/
lemma counts_withStatus (id : GroupId) {g : RolloutGroup}
    (hg : (s.withStatus a status now).group? id = some g) :
    g.counts = (s.relabelled (setting (fun b => b.id = a.id) status now)).countsOf id := by
  refine StatusCounts.ext_get fun st => ?_
  rw [(h.balanced.withStatus ha status now).counted hg st, get_countsOf, tally, tally,
    h.actions_withStatus ha]
  rfl

lemma groups_withStatus : (s.withStatus a status now).groups =
    (s.relabelled (setting (fun b => b.id = a.id) status now)).groups := by
  obtain ⟨g, hg, -⟩ := h.action_group ha
  obtain ⟨hid, -⟩ := h.group_key hg
  have hstored : s.group? g.id = some g := hid ▸ hg
  have hcounts := fun id x => h.counts_withStatus ha status now id (g := x)
  rw [Store.withStatus_eq hg] at hcounts ⊢
  have hown := hcounts g.id _ (by rw [group?_withGroup, if_pos rfl])
  dsimp only at hown
  change Table.put s.groups g.id { g with counts := g.counts.move a.status status } = _
  rw [hown]
  refine Table.put_eq_map
    (f := fun x => { x with
      counts := (s.relabelled (setting (fun b => b.id = a.id) status now)).countsOf x.id })
    hstored fun {k x} hx hne => ?_
  have hother := hcounts k x (by rw [group?_withGroup, if_neg hne]; exact hx)
  obtain ⟨rfl, -⟩ := h.group_key hx
  rw [← hother]

/-- **A new status of one action is a new status of the actions with its id.** -/
theorem withStatus_eq : s.withStatus a status now =
    s.relabelled (setting (fun b => b.id = a.id) status now) := by
  obtain ⟨g, hg, -⟩ := h.action_group ha
  calc s.withStatus a status now
      = { s with
          actions := (s.withStatus a status now).actions
          groups := (s.withStatus a status now).groups } := by
        rw [Store.withStatus_eq hg]
        rfl
    _ = s.relabelled (setting (fun b => b.id = a.id) status now) := by
        rw [h.actions_withStatus ha, h.groups_withStatus ha]
        rfl

end Tallied

end Store

/-- **Devices are asked to cancel actions**, one after the other. -/
theorem Transaction.cancelEach_relabels {s : Store} {actions : List Action} {now : Nat}
    (h : s.Tallied) (hn : (actions.map (·.id)).Nodup)
    (hstored : ∀ a ∈ actions, s.action? a.id = some a) :
    cancelEach now actions s =
      .ok ((), s.relabelled
        (Store.setting (fun b => b.id ∈ actions.map (·.id)) .canceling now)) := by
  induction actions generalizing s with
  | nil =>
    have hnone :
        s.relabelled (Store.setting (fun b => b.id ∈ [].map Action.id) .canceling now) = s :=
      h.relabelled_eq_self fun _ => if_neg List.not_mem_nil
    rw [hnone]
    rfl
  | cons a actions ih =>
    have hstep := h.withStatus_eq (hstored a List.mem_cons_self) .canceling now
    have hlater := Store.stored_withStatus hn hstored .canceling now
    rw [cancelEach, bind_run (setStatus_run h.toKeyed a .canceling now)]
    rw [hstep] at hlater ⊢
    rw [ih (h.relabelled (Store.relabels_setting _ _ _)) (nodup_keys_cons hn).2 hlater,
      Store.relabelled_relabelled, Store.setting_comp_setting]
    · refine congrArg (fun f => Except.ok ((), s.relabelled f)) ?_
      congr 1
      funext b
      rw [List.map_cons, List.mem_cons, or_comm]
    · intro b
      rw [(Store.relabels_setting _ _ _).id]

end StagedRollout
