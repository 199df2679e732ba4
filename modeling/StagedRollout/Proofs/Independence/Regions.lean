/-
# The rows of one rollout

All rollouts share the tables of a store.  The rows of one of them are its own row, the groups and
actions under keys that begin with its name and a colon (`BelongsTo`), and its lease: its own region
(`Region.own`).  Everything else is beyond it (`Region.beyond`).  What is beyond one rollout takes in
the region of every other one (`Store.Agree.other`), since no key belongs to two rollouts.

Rows in a rollout's region say of themselves that they are the rollout's (`Store.Tidy`).  So what a
program reads there tells it no key of another rollout.
-/
import StagedRollout.Proofs.Lease.Transactions
import StagedRollout.Proofs.Store.Sound

namespace StagedRollout

/-! ## Tables -/

namespace Table

variable {α : Type} {table table' : Table α} {start : String}

lemma find?_put (table : Table α) (key k : String) (v : α) :
    (put table key v).find? k = if k = key then some (.intact v) else table.find? k :=
  OrderedMap.find?_insert table key k _

lemma find?_put_congr {k : String} (key : String) (v : α) (h : table'.find? k = table.find? k) :
    (put table' key v).find? k = (put table key v).find? k := by
  rw [find?_put, find?_put, h]

lemma find?_put_of_ne (table : Table α) {key k : String} (v : α) (h : k ≠ key) :
    (put table key v).find? k = table.find? k := by
  rw [find?_put, if_neg h]

/-- A listing depends on the rows under the keys that begin with the text only. -/
lemma list_congr (h : ∀ key, startsWith start key = true → table'.find? key = table.find? key) :
    list table' start = list table start := by
  refine congrArg decode (OrderedMap.eq_of_mem_iff ?_ ?_ fun ⟨key, row⟩ => ?_)
  · exact (OrderedMap.scan_eq_filter table' start) ▸ table'.ascending.filter _
  · exact (OrderedMap.scan_eq_filter table start) ▸ table.ascending.filter _
  · rw [OrderedMap.scan_eq_filter, OrderedMap.scan_eq_filter, List.mem_filter, List.mem_filter,
      OrderedMap.mem_entries_iff, OrderedMap.mem_entries_iff]
    exact and_congr_left fun hkey => by rw [h key hkey]

lemma exists_of_mem_list {l : List α} (h : list table start = .ok l) {v : α} (hv : v ∈ l) :
    ∃ key, startsWith start key = true ∧ table.find? key = some (.intact v) := by
  rw [list, OrderedMap.scan_eq_filter] at h
  rw [eq_of_decode h] at hv
  obtain ⟨⟨key, row⟩, hmem, hvalue⟩ := List.mem_filterMap.1 hv
  obtain ⟨hentry, hkey⟩ := List.mem_filter.1 hmem
  cases row with
  | damaged reason => cases hvalue
  | intact v' =>
    obtain rfl := Option.some.inj hvalue
    exact ⟨key, hkey, (OrderedMap.mem_entries_iff table).1 hentry⟩

end Table

/-! ## Keys -/

/-- The key of a group or an action of a rollout: it begins with the rollout's name, in which there
is no colon, and a colon. -/
def BelongsTo (a : RolloutId) (key : String) : Prop :=
  ':' ∉ a.toList ∧ startsWith (a ++ ":") key = true

namespace BelongsTo

variable {a b : RolloutId} {key : String}

lemma iff_append : BelongsTo a key ↔
    ':' ∉ a.toList ∧ ∃ rest, key.toList = a.toList ++ ':' :: rest := by
  rw [BelongsTo, startsWith_colon_iff]

/-- A key belongs to one rollout at most. -/
lemma unique (h : BelongsTo a key) (h' : BelongsTo b key) : a = b := by
  obtain ⟨ha, x, hx⟩ := iff_append.1 h
  obtain ⟨hb, y, hy⟩ := iff_append.1 h'
  exact String.ext (eq_of_append_colon ha hb (hx.symm.trans hy)).1

lemma groupId (ha : ':' ∉ a.toList) (index : Nat) : BelongsTo a (RolloutGroup.idOf a index) :=
  iff_append.2 ⟨ha, _, toList_groupId a index⟩

/-- The actions of a rollout's group are the rollout's own. -/
lemma actionId (h : BelongsTo a key) (t : TargetId) : BelongsTo a (Action.idOf key t) := by
  obtain ⟨ha, x, hx⟩ := iff_append.1 h
  refine iff_append.2 ⟨ha, x ++ ':' :: t.toList, ?_⟩
  rw [toList_actionId, hx, List.append_assoc, List.cons_append]

end BelongsTo

/-! ## Rows -/

/-- The row of the rollout. -/
def Rollout.IsOf (r : Rollout) (a : RolloutId) : Prop := r.id = a ∧ ':' ∉ a.toList

/-- A row of one of the rollout's groups. -/
def RolloutGroup.IsOf (g : RolloutGroup) (a : RolloutId) : Prop :=
  BelongsTo a g.id ∧ g.rolloutId = a

/-- A row of one of the rollout's actions, which is counted by one of its groups. -/
def Action.IsOf (x : Action) (a : RolloutId) : Prop :=
  BelongsTo a x.id ∧ BelongsTo a x.groupId ∧ x.rolloutId = a

/-! ## Regions -/

/-- Some keys of the tables of rollouts, of groups and actions, and of leases. -/
structure Region where
  rollouts : RolloutId → Prop
  parts : String → Prop
  leases : String → Prop

namespace Region

/-- No rows. -/
def none : Region := ⟨fun _ => False, fun _ => False, fun _ => False⟩

/-- All rows. -/
def all : Region := ⟨fun _ => True, fun _ => True, fun _ => True⟩

/-- The rows of a rollout but for its lease. -/
def rows (a : RolloutId) : Region := ⟨(· = a), BelongsTo a, fun _ => False⟩

/-- All rows but the lease of a rollout. -/
def butLease (a : RolloutId) : Region := ⟨fun _ => True, fun _ => True, (· ≠ Lease.rolloutKey a)⟩

/-- The rows of a rollout with its lease, and some that are watched besides. -/
def own (watched : Region) (a : RolloutId) : Region where
  rollouts id := id = a ∨ watched.rollouts id
  parts key := BelongsTo a key ∨ watched.parts key
  leases key := key = Lease.rolloutKey a ∨ watched.leases key

/-- All rows but those of a rollout. -/
def beyond (a : RolloutId) : Region :=
  ⟨(· ≠ a), fun key => ¬ BelongsTo a key, (· ≠ Lease.rolloutKey a)⟩

/-- The rows of two regions together. -/
def or (p q : Region) : Region where
  rollouts id := p.rollouts id ∨ q.rollouts id
  parts key := p.parts key ∨ q.parts key
  leases key := p.leases key ∨ q.leases key

/-- The rows that two regions share. -/
def and (p q : Region) : Region where
  rollouts id := p.rollouts id ∧ q.rollouts id
  parts key := p.parts key ∧ q.parts key
  leases key := p.leases key ∧ q.leases key

end Region

lemma Lease.rolloutKey_injective {a b : RolloutId}
    (h : Lease.rolloutKey a = Lease.rolloutKey b) : a = b := by
  have hlist := congrArg String.toList h
  rw [rolloutKey, rolloutKey, String.toList_append, String.toList_append] at hlist
  exact String.ext (List.append_cancel_left hlist)

namespace Store

variable {p q : Region} {s t u s' t' : Store} {a b : RolloutId} {watched : Region}

/-- Two stores have the same rows in a region, and the same devices and saved filters. -/
structure Agree (p : Region) (s t : Store) : Prop where
  rollouts : ∀ id, p.rollouts id → t.rollouts.find? id = s.rollouts.find? id
  groups : ∀ key, p.parts key → t.groups.find? key = s.groups.find? key
  actions : ∀ key, p.parts key → t.actions.find? key = s.actions.find? key
  leases : ∀ key, p.leases key → t.leases.find? key = s.leases.find? key
  targets : t.targets = s.targets
  filters : t.filters = s.filters

namespace Agree

lemma refl (p : Region) (s : Store) : Agree p s s :=
  ⟨fun _ _ => rfl, fun _ _ => rfl, fun _ _ => rfl, fun _ _ => rfl, rfl, rfl⟩

lemma symm (h : Agree p s t) : Agree p t s :=
  ⟨fun id hid => (h.rollouts id hid).symm, fun key hkey => (h.groups key hkey).symm,
    fun key hkey => (h.actions key hkey).symm, fun key hkey => (h.leases key hkey).symm,
    h.targets.symm, h.filters.symm⟩

lemma trans (h : Agree p s t) (h' : Agree p t u) : Agree p s u :=
  ⟨fun id hid => (h'.rollouts id hid).trans (h.rollouts id hid),
    fun key hkey => (h'.groups key hkey).trans (h.groups key hkey),
    fun key hkey => (h'.actions key hkey).trans (h.actions key hkey),
    fun key hkey => (h'.leases key hkey).trans (h.leases key hkey),
    h'.targets.trans h.targets, h'.filters.trans h.filters⟩

lemma mono (h : Agree p s t) (hrollouts : ∀ id, q.rollouts id → p.rollouts id)
    (hparts : ∀ key, q.parts key → p.parts key) (hleases : ∀ key, q.leases key → p.leases key) :
    Agree q s t where
  rollouts id hid := h.rollouts id (hrollouts id hid)
  groups key hkey := h.groups key (hparts key hkey)
  actions key hkey := h.actions key (hparts key hkey)
  leases key hkey := h.leases key (hleases key hkey)
  targets := h.targets
  filters := h.filters

lemma rows (h : Agree (.own watched a) s t) : Agree (.rows a) s t :=
  h.mono (fun _ hid => .inl hid) (fun _ hkey => .inl hkey) nofun

/-- Beyond one rollout is all that another one has. -/
lemma other (h : Agree (.beyond a) s t) (hab : a ≠ b) :
    Agree (.own .none b) s t where
  rollouts id hid := h.rollouts id fun heq => hab (heq.symm.trans (hid.resolve_right not_false))
  groups key hkey := h.groups key fun hkey' => hab (hkey'.unique (hkey.resolve_right not_false))
  actions key hkey := h.actions key fun hkey' => hab (hkey'.unique (hkey.resolve_right not_false))
  leases key hkey := h.leases key fun hkey' => hab
    (Lease.rolloutKey_injective (hkey'.symm.trans (hkey.resolve_right not_false)))
  targets := h.targets
  filters := h.filters

lemma or (h : Agree p s t) (h' : Agree q s t) : Agree (p.or q) s t where
  rollouts id hid := hid.elim (h.rollouts id) (h'.rollouts id)
  groups key hkey := hkey.elim (h.groups key) (h'.groups key)
  actions key hkey := hkey.elim (h.actions key) (h'.actions key)
  leases key hkey := hkey.elim (h.leases key) (h'.leases key)
  targets := h.targets
  filters := h.filters

/-- Stores that agree on everything are equal. -/
lemma eq_of_all (h : Agree .all s t) : t = s := by
  have hrollouts := OrderedMap.ext_find? fun id => h.rollouts id trivial
  have hgroups := OrderedMap.ext_find? fun key => h.groups key trivial
  have hactions := OrderedMap.ext_find? fun key => h.actions key trivial
  have hleases := OrderedMap.ext_find? fun key => h.leases key trivial
  cases s
  cases t
  congr 1
  · exact h.targets
  · exact h.filters

lemma eq_of_own_all (h : Agree (.own .all a) s t) : t = s :=
  eq_of_all (h.mono (fun _ => .inr) (fun _ => .inr) fun _ => .inr)

/-- Stores that agree on a rollout's region and beyond it are equal. -/
lemma eq (hown : Agree (.own watched a) s t) (hbeyond : Agree (.beyond a) s t) : t = s :=
  eq_of_all ((hown.or hbeyond).mono (fun id _ => (em (id = a)).imp_left .inl)
    (fun key _ => (em (BelongsTo a key)).imp_left .inl)
    fun key _ => (em (key = Lease.rolloutKey a)).imp_left .inl)

lemma and_left (h : Agree p s t) (q : Region) : Agree (p.and q) s t :=
  h.mono (fun _ hid => hid.1) (fun _ hkey => hkey.1) fun _ hkey => hkey.1

lemma and_right (h : Agree q s t) (p : Region) : Agree (p.and q) s t :=
  h.mono (fun _ hid => hid.2) (fun _ hkey => hkey.2) fun _ hkey => hkey.2

/-- **Changes in the regions of two rollouts may be made in either order**, if each of them is the
same in front of the other one and behind it. -/
lemma diamond {s₁ s₂ s₁₂ s₂₁ : Store} (hab : a ≠ b)
    (h₁ : Agree (.beyond a) s s₁) (h₁₂ : Agree (.beyond b) s₁ s₁₂)
    (h₂ : Agree (.beyond b) s s₂) (h₂₁ : Agree (.beyond a) s₂ s₂₁)
    (ha : Agree (.own .none a) s₁ s₂₁) (hb : Agree (.own .none b) s₂ s₁₂) : s₂₁ = s₁₂ := by
  have hownb : Agree (.own .none b) s₁₂ s₂₁ := hb.symm.trans (h₂₁.other hab)
  -- what is neither of the one nor of the other is as it was
  have hrest : Agree ((Region.beyond a).and (.beyond b)) s₁₂ s₂₁ :=
    ((h₁.and_left _).trans (h₁₂.and_right _)).symm.trans ((h₂.and_right _).trans (h₂₁.and_left _))
  have hbeyond : Agree (.beyond a) s₁₂ s₂₁ := (hownb.or hrest).mono
    (fun id hid => (em (id = b)).imp .inl (⟨hid, ·⟩))
    (fun key hkey => (em (BelongsTo b key)).imp .inl (⟨hkey, ·⟩))
    fun key hkey => (em (key = Lease.rolloutKey b)).imp .inl (⟨hkey, ·⟩)
  exact eq ((h₁₂.other hab.symm).symm.trans ha) hbeyond

end Agree

/-- The rows in a rollout's region are its own: they are stored under their ids, groups and actions
say that they belong to the rollout, and no action is counted by a group of another one. -/
structure Tidy (a : RolloutId) (s : Store) : Prop where
  row : ∀ r, s.rollouts.find? a = some (.intact r) → r.IsOf a
  group : ∀ key g, BelongsTo a key → s.groups.find? key = some (.intact g) →
    g.id = key ∧ g.IsOf a
  action : ∀ key x, BelongsTo a key → s.actions.find? key = some (.intact x) →
    x.id = key ∧ x.IsOf a

lemma Tidy.congr (h : Tidy a s) (hs : Agree (.rows a) s t) : Tidy a t where
  row r hr := h.row r ((hs.rollouts a rfl).symm.trans hr)
  group key g hkey hg := h.group key g hkey ((hs.groups key hkey).symm.trans hg)
  action key x hkey hx := h.action key x hkey ((hs.actions key hkey).symm.trans hx)

lemma Sound.isOf_group (h : Sound s) {key : GroupId} {g : RolloutGroup}
    (hg : s.group? key = some g) : g.id = key ∧ g.IsOf g.rolloutId := by
  obtain ⟨hid, hplaced⟩ := h.group_key hg
  obtain ⟨r, hr⟩ := h.group_rollout hg
  refine ⟨hid, ?_, rfl⟩
  rw [hplaced.id_eq]
  exact .groupId (colon_notMem_of_isName (h.rollout_key hr).2) _

lemma Sound.isOf_action (h : Sound s) {key : ActionId} {x : Action}
    (hx : s.action? key = some x) : x.id = key ∧ x.IsOf x.rolloutId := by
  obtain ⟨rfl, hid⟩ := h.action_key hx
  obtain ⟨g, hg, hof, -⟩ := h.action_group hx
  -- the id of the action begins with the id of its group, and that with the name
  have hgroup : BelongsTo x.rolloutId x.groupId := by
    obtain ⟨hgid, hbelongs, -⟩ := h.isOf_group hg
    rwa [hgid, hof] at hbelongs
  refine ⟨rfl, ?_, hgroup, rfl⟩
  rw [hid]
  exact hgroup.actionId x.targetId

/-- **The rows of a sound store are tidy.** -/
lemma Sound.tidy (h : Sound s) (a : RolloutId) : Tidy a s where
  row r hr := by
    obtain ⟨hid, hname⟩ := h.rollout_key (Table.intact?_eq_some_iff.2 hr)
    exact ⟨hid, colon_notMem_of_isName hname⟩
  group key g hkey hg := by
    obtain ⟨rfl, hof⟩ := h.isOf_group (Table.intact?_eq_some_iff.2 hg)
    obtain rfl := hkey.unique hof.1
    exact ⟨rfl, hof⟩
  action key x hkey hx := by
    obtain ⟨rfl, hof⟩ := h.isOf_action (Table.intact?_eq_some_iff.2 hx)
    obtain rfl := hkey.unique hof.1
    exact ⟨rfl, hof⟩

/-! ## Writes -/

namespace Agree

lemma withRollout (h : Agree p s t) (r : Rollout) : Agree p (s.withRollout r) (t.withRollout r) :=
  { h with rollouts := fun id hid => Table.find?_put_congr r.id r (h.rollouts id hid) }

lemma withGroup (h : Agree p s t) (g : RolloutGroup) : Agree p (s.withGroup g) (t.withGroup g) :=
  { h with groups := fun key hkey => Table.find?_put_congr g.id g (h.groups key hkey) }

lemma withAction (h : Agree p s t) (x : Action) : Agree p (s.withAction x) (t.withAction x) :=
  { h with actions := fun key hkey => Table.find?_put_congr x.id x (h.actions key hkey) }

lemma withLease (h : Agree p s t) (key : String) (l : Lease) :
    Agree p (s.withLease key l) (t.withLease key l) :=
  { h with leases := fun k hk => Table.find?_put_congr key l (h.leases k hk) }

variable (s)

lemma of_withRollout {r : Rollout} (h : ¬ p.rollouts r.id) : Agree p s (s.withRollout r) :=
  { refl p s with rollouts := fun _ hid => Table.find?_put_of_ne _ r fun heq => h (heq ▸ hid) }

lemma of_withGroup {g : RolloutGroup} (h : ¬ p.parts g.id) : Agree p s (s.withGroup g) :=
  { refl p s with groups := fun _ hkey => Table.find?_put_of_ne _ g fun heq => h (heq ▸ hkey) }

lemma of_withAction {x : Action} (h : ¬ p.parts x.id) : Agree p s (s.withAction x) :=
  { refl p s with actions := fun _ hkey => Table.find?_put_of_ne _ x fun heq => h (heq ▸ hkey) }

lemma of_withLease {key : String} (h : ¬ p.leases key) (l : Lease) :
    Agree p s (s.withLease key l) :=
  { refl p s with leases := fun _ hk => Table.find?_put_of_ne _ l fun heq => h (heq ▸ hk) }

end Agree

namespace Tidy

lemma withRollout (h : Tidy a s) {r : Rollout} (hr : r.IsOf a) : Tidy a (s.withRollout r) where
  row r' hr' := by
    rw [Store.withRollout, Table.find?_put, if_pos hr.1.symm] at hr'
    cases hr'
    exact hr
  group := h.group
  action := h.action

lemma withGroup (h : Tidy a s) {g : RolloutGroup} (hg : g.IsOf a) : Tidy a (s.withGroup g) where
  row := h.row
  group key g' hkey hg' := by
    rw [Store.withGroup, Table.find?_put] at hg'
    split at hg'
    · rename_i heq
      cases hg'
      exact ⟨heq.symm, hg⟩
    · exact h.group key g' hkey hg'
  action := h.action

lemma withAction (h : Tidy a s) {x : Action} (hx : x.IsOf a) : Tidy a (s.withAction x) where
  row := h.row
  group := h.group
  action key x' hkey hx' := by
    rw [Store.withAction, Table.find?_put] at hx'
    split at hx'
    · rename_i heq
      cases hx'
      exact ⟨heq.symm, hx⟩
    · exact h.action key x' hkey hx'

lemma withLease (h : Tidy a s) (key : String) (l : Lease) : Tidy a (s.withLease key l) :=
  ⟨h.row, h.group, h.action⟩

end Tidy

/-! ## Listings -/

variable (ha : ':' ∉ a.toList)
include ha

lemma Agree.listGroups (h : Agree (.own watched a) s t) : t.listGroups a = s.listGroups a :=
  Table.list_congr fun key hkey => h.groups key (.inl ⟨ha, hkey⟩)

lemma Agree.listActions (h : Agree (.own watched a) s t) : t.listActions a = s.listActions a :=
  Table.list_congr fun key hkey => h.actions key (.inl ⟨ha, hkey⟩)

lemma Tidy.isOf_of_mem_listGroups (h : Tidy a s) {l : List RolloutGroup}
    (hl : s.listGroups a = .ok l) {g : RolloutGroup} (hg : g ∈ l) : g.IsOf a := by
  obtain ⟨key, hkey, hfind⟩ := Table.exists_of_mem_list hl hg
  exact (h.group key g ⟨ha, hkey⟩ hfind).2

lemma Tidy.isOf_of_mem_listActions (h : Tidy a s) {l : List Action}
    (hl : s.listActions a = .ok l) {x : Action} (hx : x ∈ l) : x.IsOf a := by
  obtain ⟨key, hkey, hfind⟩ := Table.exists_of_mem_list hl hx
  exact (h.action key x ⟨ha, hkey⟩ hfind).2

end Store

end StagedRollout
