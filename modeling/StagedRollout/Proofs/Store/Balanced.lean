/-
# Counters behind stale arguments

A holder of a lease writes what it made of rows that it read some time ago, and devices report in
the meantime.  The counters of a group are right all the same, since no transaction takes them from
its arguments: a write of a group keeps the counters that are stored, and whatever creates an action
or changes its status counts in the same transaction.  So a store stays balanced, whatever the
arguments are, as long as no group is written that has gone.
-/
import StagedRollout.Proofs.Store.Transactions

namespace StagedRollout

namespace Store

variable {s s' s'' : Store} {stops : Prop}

/-- Groups and actions stand under their own ids, and groups count their actions rightly. -/
structure Balanced (s : Store) : Prop where
  group_key : ∀ {id g}, s.group? id = some g → g.id = id
  action_key : ∀ {id a}, s.action? id = some a → a.id = id
  counted : ∀ {id g}, s.group? id = some g → ∀ status, g.counts.get status = s.tally id status

lemma Sound.balanced (h : Sound s) : Balanced s :=
  ⟨fun hg => (h.group_key hg).1, fun ha => (h.action_key ha).1, h.counted⟩

/-- A change of a balanced store that takes nothing back of what devices have reported: groups stay,
counters are right and do not fall, and actions stay as they are.  Open actions are canceled, and
counted as such, only by who stops the rollout. -/
structure Respects (stops : Prop) (s s' : Store) : Prop where
  balanced : Balanced s'
  groups : ∀ {id g}, s.group? id = some g → ∃ g', s'.group? id = some g'
  counts : ¬ stops → ∀ {id g g'}, s.group? id = some g → s'.group? id = some g' →
    ∀ status, g.counts.get status ≤ g'.counts.get status
  actions : ∀ {id a}, s.action? id = some a → s'.action? id = some a ∨
    stops ∧ a.status.isOpen = true ∧
      ∃ now, s'.action? id = some { a with status := .canceling, lastStatusAt := now }

namespace Respects

/-- Only groups and actions matter. -/
lemma of_eq (h : Balanced s) (hg : s'.groups = s.groups) (ha : s'.actions = s.actions) :
    Respects stops s s' := by
  have hgroup : ∀ id, s'.group? id = s.group? id := fun id => by rw [group?, hg, ← group?]
  have haction : ∀ id, s'.action? id = s.action? id := fun id => by rw [action?, ha, ← action?]
  refine ⟨⟨fun hg => h.group_key (hgroup _ ▸ hg), fun ha => h.action_key (haction _ ▸ ha),
    fun hg status => ?_⟩, fun {id g} hg => ⟨g, (hgroup id).trans hg⟩,
    fun _ {id g g'} hg hg' status => ?_, fun {id a} ha => .inl ((haction id).trans ha)⟩
  · rw [tally, ha, ← tally]
    exact h.counted (hgroup _ ▸ hg) status
  · obtain rfl := Option.some.inj (hg.symm.trans ((hgroup id).symm.trans hg'))
    exact le_rfl

lemma refl (h : Balanced s) : Respects stops s s := of_eq h rfl rfl

lemma trans (h : Respects stops s s') (h' : Respects stops s' s'') : Respects stops s s'' where
  balanced := h'.balanced
  groups hg := by
    obtain ⟨g', hg'⟩ := h.groups hg
    exact h'.groups hg'
  counts hnot _ _ _ hg hg'' status := by
    obtain ⟨g', hg'⟩ := h.groups hg
    exact (h.counts hnot hg hg' status).trans (h'.counts hnot hg' hg'' status)
  actions ha := by
    rcases h.actions ha with ha' | ⟨hstops, hopen, now, ha'⟩
    · exact h'.actions ha'
    -- an action that is canceled is not open any more
    · rcases h'.actions ha' with ha'' | ⟨-, hopen', -⟩
      · exact .inr ⟨hstops, hopen, now, ha''⟩
      · cases hopen'

end Respects

/-! ## Groups -/

lemma group_key_withGroup {g : RolloutGroup} (h : ∀ {id x}, s.group? id = some x → x.id = id)
    {id : GroupId} {x : RolloutGroup} (hx : (s.withGroup g).group? id = some x) : x.id = id := by
  rw [group?_withGroup] at hx
  split at hx
  · rename_i hid
    exact Option.some.inj hx ▸ hid.symm
  · exact h hx

lemma action_key_withAction {a : Action} (h : ∀ {id x}, s.action? id = some x → x.id = id)
    {id : ActionId} {x : Action} (hx : (s.withAction a).action? id = some x) : x.id = id := by
  rw [action?_withAction] at hx
  split at hx
  · rename_i hid
    exact Option.some.inj hx ▸ hid.symm
  · exact h hx

namespace Balanced

/-- What has to be said about the counters when actions of a group change: the new counters of the
group are right, and other groups have the actions that they had. -/
lemma recounted {id : GroupId} (h : Balanced s) (s' : Store) (hgroups : s'.groups = s.groups)
    (hkey : ∀ {id a}, s'.action? id = some a → a.id = id)
    (hother : ∀ id', id' ≠ id → ∀ status, s'.tally id' status = s.tally id' status)
    {g : RolloutGroup} (hid : g.id = id)
    (hown : ∀ status, g.counts.get status = s'.tally id status) : Balanced (s'.withGroup g) where
  group_key hg' := group_key_withGroup
    (fun hx => h.group_key (by rw [group?, ← hgroups]; exact hx)) hg'
  action_key := hkey
  counted := by
    intro id' g' hg' status
    rw [group?_withGroup] at hg'
    rw [tally_withGroup]
    split at hg'
    · rename_i hid'
      obtain rfl := Option.some.inj hg'
      rw [hid', hid]
      exact hown status
    · rename_i hid'
      rw [group?, hgroups, ← group?] at hg'
      rw [hother id' (hid ▸ hid') status]
      exact h.counted hg' status

/-- A group that keeps its counters may be written. -/
lemma withGroup {g old : RolloutGroup} (h : Balanced s) (hold : s.group? g.id = some old)
    (hcounts : g.counts = old.counts) : Respects stops s (s.withGroup g) where
  balanced := by
    refine h.recounted s rfl h.action_key (fun _ _ _ => rfl) rfl fun status => ?_
    rw [hcounts]
    exact h.counted hold status
  groups := by
    intro id g' hg'
    rw [group?_withGroup]
    split
    · exact ⟨g, rfl⟩
    · exact ⟨g', hg'⟩
  counts := by
    intro _ id x x' hx hx' status
    rw [group?_withGroup] at hx'
    split at hx'
    · rename_i hid
      obtain rfl := Option.some.inj ((hid ▸ hold).symm.trans hx)
      rw [← Option.some.inj hx', hcounts]
    · rw [Option.some.inj (hx.symm.trans hx')]
  actions ha := .inl ha

/-! ## Statuses -/

/-- A stored action may get any status. -/
lemma withStatus {a : Action} (h : Balanced s) (ha : s.action? a.id = some a)
    (status : ActionStatus) (now : Nat) : Balanced (s.withStatus a status now) := by
  let a' : Action := { a with status := status, lastStatusAt := now }
  have hkey : ∀ {id b}, (s.withAction a').action? id = some b → b.id = id :=
    action_key_withAction h.action_key
  have htally := fun id st => s.tally_withAction_of_some (a := a') ha id st
  -- a group to which the action does not belong counts it neither before nor after
  have hother : ∀ id, id ≠ a.groupId → ∀ st, (s.withAction a').tally id st = s.tally id st := by
    intro id hid st
    have hthis := htally id st
    rwa [share, share, if_neg fun hx => hid hx.1.symm, if_neg fun hx => hid hx.1.symm] at hthis
  unfold Store.withStatus
  cases hg : s.group? a.groupId with
  | none =>
    refine ⟨h.group_key, hkey, fun {id g} hg' st => ?_⟩
    have hid : id ≠ a.groupId := fun heq => by
      rw [heq] at hg'
      cases hg.symm.trans hg'
    rw [hother id hid st]
    exact h.counted hg' st
  | some g =>
    have hid : g.id = a.groupId := h.group_key hg
    have hcounts : ∀ st, (g.counts.move a.status status).get st =
        (s.withAction a').tally a.groupId st := by
      intro st
      have hthis := htally a.groupId st
      have hle := s.share_le_tally ha a.groupId st
      rw [StatusCounts.get_move, h.counted hg st]
      simp only [share, true_and, a'] at hthis hle ⊢
      by_cases hsame : a.status = status
      · simp only [hsame, if_true] at hthis ⊢
        omega
      · simp only [hsame, if_false, eq_comm (a := st)]
        omega
    exact h.recounted (s.withAction a') rfl hkey hother hid hcounts

lemma exists_group?_withStatus {id : GroupId} {g : RolloutGroup} (hg : s.group? id = some g)
    (a : Action) (status : ActionStatus) (now : Nat) :
    ∃ g', (s.withStatus a status now).group? id = some g' := by
  unfold Store.withStatus
  cases s.group? a.groupId with
  | none => exact ⟨g, hg⟩
  | some old =>
    dsimp only
    rw [group?_withGroup]
    split
    · exact ⟨_, rfl⟩
    · exact ⟨g, hg⟩

/-- A device may be asked to cancel an open action. -/
lemma canceling {a : Action} (h : Balanced s) (ha : s.action? a.id = some a)
    (hopen : a.status.isOpen = true) (now : Nat) :
    Respects True s (s.withStatus a .canceling now) where
  balanced := h.withStatus ha .canceling now
  groups hg := exists_group?_withStatus hg a .canceling now
  counts hnot := absurd trivial hnot
  actions := by
    intro id b hb
    rw [action?_withStatus]
    split
    · rename_i hid
      obtain rfl := Option.some.inj ((hid ▸ ha).symm.trans hb)
      exact .inr ⟨trivial, hopen, now, rfl⟩
    · exact .inl hb

end Balanced

end Store

/-! ## Transactions -/

namespace Transaction

open Store

variable {α : Type} {s s' : Store} {stops : Prop}

lemma putRollout_respects (h : Balanced s) {r : Rollout} {u : Unit}
    (hrun : putRollout r s = .ok (u, s')) : Respects stops s s' := by
  obtain rfl := modify_eq_ok hrun
  exact .of_eq h rfl rfl

/-- A group that was read earlier may be written as long as it is stored. -/
lemma putGroup_respects (h : Balanced s) {g old : RolloutGroup} {u : Unit}
    (hold : s.group? g.id = some old) (hrun : putGroup g s = .ok (u, s')) :
    Respects stops s s' := by
  obtain ⟨found, s₁, hread, hrest⟩ := bind_eq_ok hrun
  obtain ⟨rfl, hfound⟩ := read_eq_ok hread
  obtain rfl := Except.ok.inj (hfound.symm.trans (Table.read_eq_some_iff.2 hold))
  obtain rfl := modify_eq_ok hrest
  exact h.withGroup (g := withStored (some old) g) hold rfl

lemma putGroups_respects (h : Balanced s) {groups : List RolloutGroup} {u : Unit}
    (hold : ∀ g ∈ groups, ∃ old, s.group? g.id = some old)
    (hrun : putGroups groups s = .ok (u, s')) : Respects stops s s' := by
  induction groups generalizing s with
  | nil =>
    obtain ⟨-, rfl⟩ := pure_eq_ok hrun
    exact .refl h
  | cons g rest ih =>
    obtain ⟨u₁, s₁, hput, hrest⟩ := bind_eq_ok hrun
    obtain ⟨⟨old, hfirst⟩, hlater⟩ := List.forall_mem_cons.1 hold
    have hone : Respects stops s s₁ := putGroup_respects h hfirst hput
    refine hone.trans (ih hone.balanced (fun x hx => ?_) hrest)
    obtain ⟨oldx, hx⟩ := hlater x hx
    exact hone.groups hx

lemma putRolloutWithGroups_respects (h : Balanced s) {r : Rollout} {groups : List RolloutGroup}
    {u : Unit} (hold : ∀ g ∈ groups, ∃ old, s.group? g.id = some old)
    (hrun : putRolloutWithGroups r groups s = .ok (u, s')) : Respects stops s s' := by
  obtain ⟨u₁, s₁, hput, hrest⟩ := bind_eq_ok hrun
  have hone : Respects stops s s₁ := putRollout_respects h hput
  refine hone.trans (putGroups_respects hone.balanced (fun g hg => ?_) hrest)
  obtain ⟨old, hg⟩ := hold g hg
  exact hone.groups hg

/-- Devices join a group, and its counters stay as they are. -/
lemma appendTargets_respects (h : Balanced s) {id : GroupId} {targets : List TargetId}
    {r : Rollout} {g : RolloutGroup} (hrun : appendTargets id targets s = .ok ((r, g), s')) :
    Respects stops s s' ∧ s'.group? g.id = some g := by
  obtain ⟨old, s₁, hgroup, hjoin⟩ := bind_eq_ok hrun
  obtain ⟨rfl, hold⟩ := require_eq_ok hgroup
  obtain ⟨row, s₂, hrollout, hwrites⟩ := bind_eq_ok hjoin
  obtain ⟨rfl, -⟩ := require_eq_ok hrollout
  obtain ⟨u₁, s₃, hwrite, hputs⟩ := bind_eq_ok hwrites
  obtain ⟨u₂, s₄, hput, hreturn⟩ := bind_eq_ok hputs
  obtain ⟨heq, rfl⟩ := pure_eq_ok hreturn
  obtain ⟨-, rfl⟩ := Prod.mk.inj heq
  obtain rfl := modify_eq_ok hwrite
  obtain rfl := modify_eq_ok hput
  have hstored : s₂.group? old.id = some old := by
    rw [h.group_key hold]
    exact hold
  let joined : RolloutGroup := { old with
    targets := joinTargets old.targets targets
    targetCount :=
      old.targetCount + ((joinTargets old.targets targets).length - old.targets.length) }
  have hone : Respects stops s₂ (s₂.withGroup joined) := h.withGroup (g := joined) hstored rfl
  refine ⟨hone.trans (.of_eq hone.balanced rfl rfl), ?_⟩
  have hjoined : (s₂.withGroup joined).group? joined.id = some joined := by
    rw [group?_withGroup, if_pos rfl]
  exact hjoined

/-- What the issue of actions of a group does to counters and rows. -/
structure Issues (id : GroupId) (counts : StatusCounts) (s : Store) (counts' : StatusCounts)
    (s' : Store) : Prop where
  groups : s'.groups = s.groups
  kept : ∀ {key a}, s.action? key = some a → s'.action? key = some a
  keyed : (∀ {key a}, s.action? key = some a → a.id = key) →
    ∀ {key a}, s'.action? key = some a → a.id = key
  own : ∀ status, counts'.get status + s.tally id status = counts.get status + s'.tally id status
  grown : ∀ status, counts.get status ≤ counts'.get status
  other : ∀ id', id' ≠ id → ∀ status, s'.tally id' status = s.tally id' status

/-- One more action is written and counted. -/
lemma Issues.cons {id : GroupId} {a : Action} {counts counts' : StatusCounts}
    (hnew : s.action? a.id = none) (hgroup : a.groupId = id)
    (h : Issues id (counts.increment a.status) (s.withAction a) counts' s') :
    Issues id counts s counts' s' where
  groups := h.groups
  kept := by
    intro key b hb
    have hne : key ≠ a.id := fun heq => by
      rw [heq] at hb
      cases hnew.symm.trans hb
    exact h.kept (by rw [action?_withAction, if_neg hne]; exact hb)
  keyed hkey := h.keyed (action_key_withAction hkey)
  own := by
    intro status
    have hrest := h.own status
    rw [tally_withAction_of_none _ hnew, StatusCounts.get_increment, share] at hrest
    by_cases hs : status = a.status
    · simp only [hs, hgroup, and_self, if_true] at hrest ⊢
      omega
    · simp only [hs, eq_comm (a := a.status), and_false, if_false] at hrest
      omega
  grown status := by
    have hrest := h.grown status
    rw [StatusCounts.get_increment] at hrest
    exact (Nat.le_add_right _ _).trans hrest
  other := by
    intro id' hid status
    have hne : ¬ (a.groupId = id' ∧ a.status = status) := fun hx => hid (hx.1.symm.trans hgroup)
    rw [h.other id' hid status, tally_withAction_of_none _ hnew, share, if_neg hne]
    rfl

/-- The counters of the group are written with the actions. -/
lemma Issues.respects {id : GroupId} {counts counts' : StatusCounts} {g : RolloutGroup}
    (hissues : Issues id counts s counts' s') (h : Balanced s)
    (hcounts : ∀ status, counts.get status = s.tally id status) (hid : g.id = id)
    (hnew : g.counts = counts') : Respects stops s (s'.withGroup g) where
  balanced := by
    refine h.recounted s' hissues.groups (hissues.keyed h.action_key) hissues.other hid
      fun status => ?_
    have hown := hissues.own status
    rw [hcounts status] at hown
    rw [hnew]
    omega
  groups := by
    intro key old hold
    rw [group?_withGroup]
    split
    · exact ⟨g, rfl⟩
    · exact ⟨old, by rw [group?, hissues.groups]; exact hold⟩
  counts := by
    intro _ key x x' hx hx' status
    rw [group?_withGroup] at hx'
    split at hx'
    · rename_i hkey
      rw [← Option.some.inj hx', hnew, h.counted hx status, hkey, hid, ← hcounts status]
      exact hissues.grown status
    · rw [group?, hissues.groups, ← group?] at hx'
      rw [Option.some.inj (hx.symm.trans hx')]
  actions ha := .inl (hissues.kept ha)

lemma issueEach_eq_ok {id : GroupId} {actions created : List Action} {counts counts' : StatusCounts}
    (hgroup : ∀ a ∈ actions, a.groupId = id)
    (hrun : issueEach actions counts s = .ok ((created, counts'), s')) :
    Issues id counts s counts' s' := by
  induction actions generalizing s counts created with
  | nil =>
    obtain ⟨heq, rfl⟩ := pure_eq_ok hrun
    obtain ⟨-, rfl⟩ := Prod.mk.inj heq
    exact ⟨rfl, fun h => h, fun h => h, fun _ => rfl, fun _ => le_rfl, fun _ _ _ => rfl⟩
  | cons a rest ih =>
    obtain ⟨hfirst, hlater⟩ := List.forall_mem_cons.1 hgroup
    rw [issueEach, bind_run (get_run s)] at hrun
    split at hrun
    · exact ih hlater hrun
    rename_i hhas
    have hnew : s.action? a.id = none := by
      unfold Table.has at hhas
      rw [Bool.not_eq_true, Option.isSome_eq_false_iff, Option.isNone_iff_eq_none] at hhas
      rw [action?, Table.intact?, hhas]
    obtain ⟨u, s₁, hwrite, hrest⟩ := bind_eq_ok hrun
    obtain rfl := modify_eq_ok hwrite
    obtain ⟨⟨created₁, counts₁⟩, s₂, heach, hreturn⟩ := bind_eq_ok hrest
    obtain ⟨heq, rfl⟩ := pure_eq_ok hreturn
    obtain ⟨-, rfl⟩ := Prod.mk.inj heq
    exact (ih hlater heach).cons hnew hfirst

/-- Actions that are issued are counted. -/
lemma issueActions_respects (h : Balanced s) {id : GroupId} {actions : List Action} {now : Nat}
    {issued : Issued} (hgroup : ∀ a ∈ actions, a.groupId = id)
    (hrun : issueActions id actions now s = .ok (issued, s')) :
    Respects stops s s' ∧ s'.group? issued.group.id = some issued.group := by
  obtain ⟨old, s₁, hrequire, hissue⟩ := bind_eq_ok hrun
  obtain ⟨rfl, hold⟩ := require_eq_ok hrequire
  obtain ⟨⟨created, counts⟩, s₂, heach, hwrites⟩ := bind_eq_ok hissue
  obtain ⟨u, s₃, hwrite, hreturn⟩ := bind_eq_ok hwrites
  obtain ⟨rfl, rfl⟩ := pure_eq_ok hreturn
  obtain rfl := modify_eq_ok hwrite
  have hissues := issueEach_eq_ok hgroup heach
  have hid : old.id = id := h.group_key hold
  have hbegun : ∀ g : RolloutGroup, (begun g now).id = g.id ∧ (begun g now).counts = g.counts := by
    intro g
    unfold begun
    split <;> exact ⟨rfl, rfl⟩
  obtain ⟨hbegunId, hbegunCounts⟩ := hbegun { old with counts := counts }
  have hid : old.id = id := h.group_key hold
  refine ⟨hissues.respects h (h.counted hold) (hbegunId.trans hid) hbegunCounts, ?_⟩
  have hstored : (s₂.withGroup (begun { old with counts := counts } now)).group?
      (begun { old with counts := counts } now).id =
      some (begun { old with counts := counts } now) := by
    rw [group?_withGroup, if_pos rfl]
  exact hstored

/-! ## Stopping -/

lemma recount_eq_ok {id : GroupId} {f : StatusCounts → StatusCounts} {u : Unit}
    (h : recount id f s = .ok (u, s')) : s' = match s.group? id with
      | some g => s.withGroup { g with counts := f g.counts }
      | none => s := by
  obtain ⟨found, s₁, hread, hwrite⟩ := bind_eq_ok h
  obtain ⟨rfl, hfound⟩ := read_eq_ok hread
  rw [group?, Table.intact?_of_read hfound]
  cases found with
  | none => exact (pure_eq_ok hwrite).2
  | some g => exact modify_eq_ok hwrite

lemma setStatus_eq_ok {a a' : Action} {status : ActionStatus} {now : Nat}
    (h : setStatus a status now s = .ok (a', s')) : s' = s.withStatus a status now := by
  obtain ⟨u, s₁, hwrite, hcount⟩ := bind_eq_ok h
  obtain rfl := modify_eq_ok hwrite
  obtain ⟨u', s₂, hrecount, hreturn⟩ := bind_eq_ok hcount
  obtain ⟨-, rfl⟩ := pure_eq_ok hreturn
  exact recount_eq_ok hrecount

/-- Devices are asked to cancel open actions. -/
lemma cancelEach_respects (h : Balanced s) {actions : List Action} {now : Nat} {u : Unit}
    (hn : (actions.map (·.id)).Nodup)
    (hopen : ∀ a ∈ actions, s.action? a.id = some a ∧ a.status.isOpen = true)
    (hrun : cancelEach now actions s = .ok (u, s')) : Respects True s s' := by
  induction actions generalizing s with
  | nil =>
    obtain ⟨-, rfl⟩ := pure_eq_ok hrun
    exact .refl h
  | cons a rest ih =>
    obtain ⟨a', s₁, hset, hrest⟩ := bind_eq_ok hrun
    obtain rfl := setStatus_eq_ok hset
    obtain ⟨⟨ha, haopen⟩, hlater⟩ := List.forall_mem_cons.1 hopen
    have hone := h.canceling ha haopen now
    have hstored := stored_withStatus hn (fun x hx => (hopen x hx).1) .canceling now
    exact hone.trans (ih hone.balanced (nodup_keys_cons hn).2
      (fun x hx => ⟨hstored x hx, (hlater x hx).2⟩) hrest)

/-- A rollout is stopped with its open actions. -/
lemma stopRollout_respects (h : Balanced s) {r : Rollout} {now n : Nat}
    (hrun : stopRollout r now s = .ok (n, s')) : Respects True s s' := by
  obtain ⟨u, s₁, hput, hcancel⟩ := bind_eq_ok hrun
  have hone : Respects True s s₁ := putRollout_respects h hput
  refine hone.trans ?_
  rw [cancelOpen, bind_run (get_run s₁)] at hcancel
  obtain ⟨actions, s₂, hlist, heach⟩ := bind_eq_ok hcancel
  cases hactions : s₁.listActions r.id with
  | error e =>
    rw [hactions] at hlist
    cases hlist
  | ok listed =>
    rw [hactions] at hlist
    obtain ⟨rfl, rfl⟩ := pure_eq_ok hlist
    obtain ⟨u', s₃, hrun', hreturn⟩ := bind_eq_ok heach
    obtain ⟨-, rfl⟩ := pure_eq_ok hreturn
    have hsublist := Table.sublist_of_list hactions
    refine cancelEach_respects hone.balanced ?_ (fun a ha => ?_) hrun'
    · have hsorted := Table.rows_ascending fun {key a} ha => hone.balanced.action_key ha
      exact List.pairwise_map.2 (((hsorted.sublist hsublist).filter _).imp String.ne_of_lt)
    · obtain ⟨hmem, haopen⟩ := List.mem_filter.1 ha
      obtain ⟨key, hkey⟩ := Table.mem_rows.1 (hsublist.subset hmem)
      have hid : a.id = key := hone.balanced.action_key hkey
      exact ⟨hid ▸ hkey, haopen⟩

/-- A status report leaves a balanced store and removes no group. -/
lemma report_balanced (h : Balanced s) {id : ActionId} {status : ActionStatus} {now : Nat}
    {outcome : ReportOutcome} (hrun : report id status now s = .ok (outcome, s')) :
    Balanced s' ∧ s'.rollouts = s.rollouts ∧
      ∀ {id g}, s.group? id = some g → ∃ g', s'.group? id = some g' := by
  obtain ⟨found, s₁, hread, hrest⟩ := bind_eq_ok hrun
  obtain ⟨rfl, hfound⟩ := read_eq_ok hread
  have hsame : Balanced s₁ ∧ s₁.rollouts = s₁.rollouts ∧
      ∀ {id g}, s₁.group? id = some g → ∃ g', s₁.group? id = some g' := ⟨h, rfl, fun hg => ⟨_, hg⟩⟩
  cases found with
  | none =>
    obtain ⟨-, rfl⟩ := pure_eq_ok hrest
    exact hsame
  | some a =>
    dsimp only at hrest
    split at hrest
    · obtain ⟨-, rfl⟩ := pure_eq_ok hrest
      exact hsame
    split at hrest
    · obtain ⟨-, rfl⟩ := pure_eq_ok hrest
      exact hsame
    obtain ⟨a', s₂, hset, hreturn⟩ := bind_eq_ok hrest
    obtain ⟨-, rfl⟩ := pure_eq_ok hreturn
    obtain rfl := setStatus_eq_ok hset
    have ha : s₁.action? id = some a := Table.read_eq_some_iff.1 hfound
    have hid : a.id = id := h.action_key ha
    exact ⟨h.withStatus (hid ▸ ha) status now, rollouts_withStatus s₁ a status now,
      fun hg => Balanced.exists_group?_withStatus hg a status now⟩

end Transaction

end StagedRollout
