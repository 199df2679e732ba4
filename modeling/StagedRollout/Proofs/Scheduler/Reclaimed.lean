/-
# What a cleanup pass leaves

What becomes of every row when all that a pass may remove is gone is `Cleanup.Reclaimed`.  There is
one such store only (`Reclaimed.unique`), and each write of a pass, a `Cleanup.Sweep`, leads to a
store from which the same one is reached (`Sweep.reclaimed`).  So it does not matter how far a pass
has come: a store in which nothing is left to do (`Cleanup.Clean`) is what the pass was to leave.
-/
import StagedRollout.Proofs.Scheduler.Cleanup
import StagedRollout.Proofs.Store.Relabelled

namespace StagedRollout

open Store

/-- Tables without damage that hold the same values are equal. -/
lemma Table.eq_of_intact? {α : Type} {t t' : Table α} (h : Table.Undamaged t)
    (h' : Table.Undamaged t') (heq : ∀ key, Table.intact? t key = Table.intact? t' key) :
    t = t' := by
  refine OrderedMap.ext_find? fun key => ?_
  have hrow := heq key
  cases hfind : t.find? key with
  | none =>
    cases hfind' : t'.find? key with
    | none => rfl
    | some row =>
      obtain ⟨a, rfl⟩ := h' key row hfind'
      simp [Table.intact?, hfind, hfind'] at hrow
  | some row =>
    obtain ⟨a, rfl⟩ := h key row hfind
    rw [Table.intact?_eq_some_iff.2 hfind] at hrow
    exact (Table.intact?_eq_some_iff.1 hrow.symm).symm

namespace Store

variable {s : Store}

lemma Sound.counts_eq {id : GroupId} {g : RolloutGroup} (h : Sound s) (hg : s.group? id = some g) :
    g.counts = s.countsOf id := h.tallied.counted hg

/-- The store with a rollout that is gone, and without the lease that guarded it. -/
def purged (s : Store) (r : Rollout) : Store :=
  { s.withRollout r with leases := s.leases.erase (Lease.rolloutKey r.id) }

lemma group?_dropped {a : Action} {g : RolloutGroup} (h : Keyed s)
    (hg : s.group? a.groupId = some g) (key : GroupId) : (s.dropped a).group? key =
      if key = a.groupId then some { g with counts := g.counts.decrement a.status }
      else s.group? key := by
  rw [dropped_eq hg, group?_withGroup, group?_withoutAction, (h.group_key hg).1]

end Store

namespace Cleanup

/-! ## What may be removed -/

section

variable (grace now : Nat) (s : Store)

/-- The rollout with an id waits to be reclaimed. -/
def dooms (id : RolloutId) : Bool := (s.rollout? id).any isDoomed

/-- A group has an action in flight. -/
def keeps (id : GroupId) : Bool := (s.actionsOf id).any (isInFlight grace now)

/-- A rollout has a group with an action in flight. -/
def holds (id : RolloutId) : Bool := (s.groupsOf id).any fun g => keeps grace now s g.id

end

/-- A rollout that is gone. -/
def gone (now : Nat) (r : Rollout) : Rollout :=
  { r with
    state := .deleted
    updatedAt := now
    groupIds := [] }

lemma isDoomed_gone (now : Nat) (r : Rollout) : isDoomed (gone now r) = false := by
  simp [isDoomed, gone]

/-- The second store is what a pass leaves of the first one. -/
structure Reclaimed (grace now : Nat) (s s' : Store) : Prop where
  /-- Every row can be decoded. -/
  intact : Table.Undamaged s'.rollouts ∧ Table.Undamaged s'.groups ∧ Table.Undamaged s'.actions
  /-- The actions of doomed rollouts are gone unless they are in flight. -/
  actions : ∀ key, s'.action? key =
    (s.action? key).filter fun a => !dooms s a.rolloutId || isInFlight grace now a
  /-- The groups of doomed rollouts are gone unless they have an action in flight; those that are
  left count what is left. -/
  groups : ∀ key, s'.group? key =
    ((s.group? key).filter fun g => !dooms s g.rolloutId || keeps grace now s key).map fun g =>
      if dooms s g.rolloutId then { g with counts := s'.countsOf key } else g
  /-- The doomed rollouts without such a group are gone. -/
  rollouts : ∀ id, s'.rollout? id =
    (s.rollout? id).map fun r => if isDoomed r && !holds grace now s id then gone now r else r
  /-- Their leases are gone with them. -/
  released : ∀ id, dooms s id = true → holds grace now s id = false →
    s'.leases.find? (Lease.rolloutKey id) = none
  /-- All other leases are as they were. -/
  leases : ∀ key, (∀ id, key = Lease.rolloutKey id → dooms s id = true →
    holds grace now s id = true) → s'.leases.find? key = s.leases.find? key
  targets : s'.targets = s.targets
  filters : s'.filters = s.filters

variable {grace now : Nat} {s s' s₁ s₂ : Store}

lemma dooms_iff {id : RolloutId} :
    dooms s id = true ↔ ∃ r, s.rollout? id = some r ∧ isDoomed r = true := by
  rw [dooms, Option.any_eq_true]

lemma keeps_iff (h : Keyed s) {id : GroupId} : keeps grace now s id = true ↔
    ∃ key a, s.action? key = some a ∧ a.groupId = id ∧ isInFlight grace now a = true := by
  rw [keeps, List.any_eq_true]
  constructor
  · rintro ⟨a, ha, hfly⟩
    obtain ⟨ha, hgroup⟩ := h.mem_actionsOf.1 ha
    exact ⟨a.id, a, ha, hgroup, hfly⟩
  · rintro ⟨key, a, ha, hgroup, hfly⟩
    exact ⟨a, h.mem_actionsOf.2 ⟨(h.action_key ha).1 ▸ ha, hgroup⟩, hfly⟩

lemma holds_iff (h : Keyed s) {id : RolloutId} : holds grace now s id = true ↔
    ∃ key g, s.group? key = some g ∧ g.rolloutId = id ∧ keeps grace now s key = true := by
  rw [holds, List.any_eq_true]
  constructor
  · rintro ⟨g, hg, hkeeps⟩
    obtain ⟨hg, hof⟩ := h.mem_groupsOf.1 hg
    exact ⟨g.id, g, hg, hof, hkeeps⟩
  · rintro ⟨key, g, hg, hof, hkeeps⟩
    obtain ⟨rfl, -⟩ := h.group_key hg
    exact ⟨g, h.mem_groupsOf.2 ⟨hg, hof⟩, hkeeps⟩

/-! ## There is one end -/

/-- **There is one store only** that a pass may leave. -/
theorem Reclaimed.unique (h₁ : Reclaimed grace now s s₁) (h₂ : Reclaimed grace now s s₂) :
    s₁ = s₂ := by
  have hactions : s₁.actions = s₂.actions :=
    Table.eq_of_intact? h₁.intact.2.2 h₂.intact.2.2 fun key =>
      (h₁.actions key).trans (h₂.actions key).symm
  have hcounts : ∀ id, s₁.countsOf id = s₂.countsOf id := fun id => by
    have htally : s₁.tally id = s₂.tally id := by
      funext status
      rw [tally, hactions, tally]
    rw [countsOf, htally, countsOf]
  have hgroups : s₁.groups = s₂.groups :=
    Table.eq_of_intact? h₁.intact.2.1 h₂.intact.2.1 fun key => by
      have hkey := h₁.groups key
      rw [hcounts] at hkey
      exact hkey.trans (h₂.groups key).symm
  have hrollouts : s₁.rollouts = s₂.rollouts :=
    Table.eq_of_intact? h₁.intact.1 h₂.intact.1 fun key =>
      (h₁.rollouts key).trans (h₂.rollouts key).symm
  have hleases : s₁.leases = s₂.leases := by
    refine OrderedMap.ext_find? fun key => ?_
    by_cases hkey : ∀ id, key = Lease.rolloutKey id → dooms s id = true →
        holds grace now s id = true
    · rw [h₁.leases key hkey, h₂.leases key hkey]
    · push Not at hkey
      obtain ⟨id, rfl, hdoomed, hnot⟩ := hkey
      have hholds : holds grace now s id = false := Bool.not_eq_true _ ▸ hnot
      rw [h₁.released id hdoomed hholds, h₂.released id hdoomed hholds]
  have htargets := h₁.targets.trans h₂.targets.symm
  have hfilters := h₁.filters.trans h₂.filters.symm
  cases s₁
  cases s₂
  simp only at hactions hgroups hrollouts hleases htargets hfilters
  rw [hactions, hgroups, hrollouts, hleases, htargets, hfilters]

/-! ## The writes of a pass -/

/-- A write of a pass. -/
inductive Sweep (grace now : Nat) : Store → Store → Prop
  /-- Nothing was there to be removed. -/
  | rest (s : Store) : Sweep grace now s s
  /-- An action that is not in flight is removed. -/
  | dropAction {s : Store} {a : Action} {r : Rollout} (ha : s.action? a.id = some a)
      (hr : s.rollout? a.rolloutId = some r) (hdoomed : isDoomed r = true)
      (hidle : isInFlight grace now a = false) : Sweep grace now s (s.dropped a)
  /-- A group without actions is removed. -/
  | dropGroup {s : Store} {g : RolloutGroup} {r : Rollout} (hg : s.group? g.id = some g)
      (hr : s.rollout? g.rolloutId = some r) (hdoomed : isDoomed r = true)
      (hnone : ∀ key a, s.action? key = some a → a.groupId ≠ g.id) :
      Sweep grace now s (s.withoutGroup g.id)
  /-- A rollout without groups is gone. -/
  | purge {s : Store} {r : Rollout} (hr : s.rollout? r.id = some r) (hdoomed : isDoomed r = true)
      (hnone : s.groupsOf r.id = []) : Sweep grace now s (s.purged (gone now r))

lemma deleting_of_isDoomed {r : Rollout} (h : isDoomed r = true) : r.state = .deleting := by
  rw [isDoomed, Bool.and_eq_true, decide_eq_true_eq] at h
  exact h.2

/-- In a sound store the rollouts that wait to be reclaimed are those that are being deleted. -/
lemma dooms_iff_deleting (h : Sound s) {id : RolloutId} :
    dooms s id = true ↔ ∃ r, s.rollout? id = some r ∧ r.state = .deleting := by
  rw [dooms_iff]
  refine exists_congr fun r => and_congr_right fun hr => ⟨deleting_of_isDoomed, fun hstate => ?_⟩
  have hd : r.deleted = true := (h.agrees hr).deleted_iff.2 (.inl hstate)
  simp [isDoomed, hd, hstate]

lemma apply?_purged {r : Rollout} (h : isDoomed r = true) (now : Nat) :
    r.apply? .purged now = some { r with state := .deleted, updatedAt := now } := by
  simp [ Rollout.apply?, deleting_of_isDoomed h, RolloutState.next]

lemma Sweep.move (h : Sweep grace now s s') : Move (fun _ => True) s s' := by
  cases h with
  | rest => exact .beside (.refl _)
  | dropAction ha hr hdoomed hidle =>
    exact .dropAction trivial ha hr (deleting_of_isDoomed hdoomed) hidle
  | dropGroup hg hr hdoomed hnone =>
    exact @Move.dropGroup _ _ _ _ grace now trivial hg hr (deleting_of_isDoomed hdoomed) hnone
  | purge hr hdoomed hnone =>
    exact .purge trivial hr hnone (apply?_purged hdoomed now) ⟨rfl, rfl, rfl⟩

lemma Sweep.sound (h : Sweep grace now s s') (hs : Sound s) : Sound s' := hs.move h.move

/-! ### Every write leads to the same end -/

/-- A write that leaves rollouts, leases, devices and saved filters alone leads to the same end if
it removes nothing but rows that are to go. -/
lemma Reclaimed.before {S : Store} (h : Reclaimed grace now s' S)
    (hrollouts : s'.rollouts = s.rollouts) (hleases : s'.leases = s.leases)
    (htargets : s'.targets = s.targets) (hfilters : s'.filters = s.filters)
    (hkeeps : ∀ id, keeps grace now s' id = keeps grace now s id)
    (hholds : ∀ id, holds grace now s' id = holds grace now s id)
    (hactions : ∀ key, (s'.action? key).filter
        (fun a => !dooms s a.rolloutId || isInFlight grace now a) =
      (s.action? key).filter fun a => !dooms s a.rolloutId || isInFlight grace now a)
    (hgroups : ∀ key counts, ((s'.group? key).filter
        fun g => !dooms s g.rolloutId || keeps grace now s key).map
          (fun g => if dooms s g.rolloutId then { g with counts := counts } else g) =
      ((s.group? key).filter fun g => !dooms s g.rolloutId || keeps grace now s key).map
        fun g => if dooms s g.rolloutId then { g with counts := counts } else g) :
    Reclaimed grace now s S := by
  have hrow : ∀ id, s'.rollout? id = s.rollout? id := fun id => by
    rw [rollout?, hrollouts, ← rollout?]
  have hdooms : ∀ id, dooms s' id = dooms s id := fun id => by rw [dooms, hrow, ← dooms]
  refine ⟨h.intact, fun key => ?_, fun key => ?_, fun id => ?_, fun id hd hh => ?_,
    fun key hkey => ?_, h.targets.trans htargets, h.filters.trans hfilters⟩
  · rw [← hactions, h.actions]
    simp only [hdooms]
  · rw [← hgroups, h.groups]
    simp only [hdooms, hkeeps]
  · rw [h.rollouts, hrow]
    simp only [hholds]
  · exact h.released id ((hdooms id).trans hd) ((hholds id).trans hh)
  · rw [h.leases key fun id heq hd => (hholds id).trans (hkey id heq ((hdooms id).symm.trans hd)),
      hleases]

/-- An action that is not in flight keeps no group. -/
lemma keeps_dropped {a : Action} (hs : Sound s) (ha : s.action? a.id = some a)
    (hidle : isInFlight grace now a = false) (id : GroupId) :
    keeps grace now (s.dropped a) id = keeps grace now s id := by
  have hkeyed : Keyed (s.dropped a) := (hs.dropped ha).toKeyed
  rw [Bool.eq_iff_iff, keeps_iff hkeyed, keeps_iff hs.toKeyed]
  constructor
  · rintro ⟨key, b, hb, hrest⟩
    exact ⟨key, b, (action?_dropped_eq_some.1 hb).2, hrest⟩
  · rintro ⟨key, b, hb, hgroup, hfly⟩
    refine ⟨key, b, action?_dropped_eq_some.2 ⟨?_, hb⟩, hgroup, hfly⟩
    rintro rfl
    obtain rfl := Option.some.inj (ha.symm.trans hb)
    simp [hidle] at hfly

lemma holds_dropped {a : Action} (hs : Sound s) (ha : s.action? a.id = some a)
    (hidle : isInFlight grace now a = false) (id : RolloutId) :
    holds grace now (s.dropped a) id = holds grace now s id := by
  obtain ⟨g, hg, -⟩ := hs.action_group ha
  have hkeyed : Keyed (s.dropped a) := (hs.dropped ha).toKeyed
  rw [Bool.eq_iff_iff, holds_iff hkeyed, holds_iff hs.toKeyed]
  simp only [keeps_dropped hs ha hidle, group?_dropped hs.toKeyed hg]
  constructor
  · rintro ⟨key, x, hx, hofx, hrest⟩
    split at hx
    · rename_i hkey
      obtain rfl := Option.some.inj hx
      exact ⟨key, g, hkey ▸ hg, hofx, hrest⟩
    · exact ⟨key, x, hx, hofx, hrest⟩
  · rintro ⟨key, x, hx, hofx, hrest⟩
    by_cases hkey : key = a.groupId
    · obtain rfl := Option.some.inj (hg.symm.trans (hkey ▸ hx))
      exact ⟨key, _, if_pos hkey, hofx, hrest⟩
    · exact ⟨key, x, (if_neg hkey).trans hx, hofx, hrest⟩

lemma Reclaimed.before_dropAction {S : Store} {a : Action} {r : Rollout} (hs : Sound s)
    (ha : s.action? a.id = some a) (hr : s.rollout? a.rolloutId = some r)
    (hdoomed : isDoomed r = true) (hidle : isInFlight grace now a = false)
    (h : Reclaimed grace now (s.dropped a) S) : Reclaimed grace now s S := by
  obtain ⟨g, hg, hof, -⟩ := hs.action_group ha
  have hdooms : dooms s a.rolloutId = true := dooms_iff.2 ⟨r, hr, hdoomed⟩
  have hrest : (s.dropped a).leases = s.leases ∧ (s.dropped a).targets = s.targets ∧
      (s.dropped a).filters = s.filters := by
    rw [dropped_eq hg]
    exact ⟨rfl, rfl, rfl⟩
  refine h.before (rollouts_dropped s a) hrest.1 hrest.2.1 hrest.2.2 (keeps_dropped hs ha hidle)
    (holds_dropped hs ha hidle) (fun key => ?_) fun key counts => ?_
  · rw [action?_dropped]
    split
    · rename_i hkey
      simp [hkey, ha, Option.filter_some, hdooms, hidle]
    · rfl
  · rw [group?_dropped hs.toKeyed hg]
    split
    -- the group of the action is doomed too, and its counters are counted anew
    · rename_i hkey
      simp only [hkey, hg, Option.filter_some, hof, hdooms]
      split <;> simp [hof, hdooms]
    · rfl

/-- A group without actions holds no rollout. -/
lemma holds_withoutGroup {g : RolloutGroup} (hs : Sound s)
    (hnone : ∀ key a, s.action? key = some a → a.groupId ≠ g.id) (id : RolloutId) :
    holds grace now (s.withoutGroup g.id) id = holds grace now s id := by
  have hkeyed : Keyed (s.withoutGroup g.id) := hs.toKeyed.withoutGroup hnone
  rw [Bool.eq_iff_iff, holds_iff hkeyed, holds_iff hs.toKeyed]
  constructor
  · rintro ⟨key, x, hx, hrest⟩
    exact ⟨key, x, (group?_withoutGroup_eq_some.1 hx).2, hrest⟩
  · rintro ⟨key, x, hx, hof, hkeeps⟩
    refine ⟨key, x, group?_withoutGroup_eq_some.2 ⟨?_, hx⟩, hof, hkeeps⟩
    rintro rfl
    obtain ⟨k, a, ha, hgroup, -⟩ := (keeps_iff hs.toKeyed).1 hkeeps
    exact hnone k a ha hgroup

lemma Reclaimed.before_dropGroup {S : Store} {g : RolloutGroup} {r : Rollout} (hs : Sound s)
    (hg : s.group? g.id = some g) (hr : s.rollout? g.rolloutId = some r)
    (hdoomed : isDoomed r = true) (hnone : ∀ key a, s.action? key = some a → a.groupId ≠ g.id)
    (h : Reclaimed grace now (s.withoutGroup g.id) S) : Reclaimed grace now s S := by
  have hdooms : dooms s g.rolloutId = true := dooms_iff.2 ⟨r, hr, hdoomed⟩
  have hidle : keeps grace now s g.id = false := by
    refine Bool.eq_false_iff.2 fun hkeeps => ?_
    obtain ⟨key, a, ha, hgroup, -⟩ := (keeps_iff hs.toKeyed).1 hkeeps
    exact hnone key a ha hgroup
  refine h.before rfl rfl rfl rfl (fun _ => rfl) (holds_withoutGroup hs hnone) (fun _ => rfl)
    fun key counts => ?_
  rw [group?_withoutGroup]
  split
  · rename_i hkey
    simp [hkey, hg, hdooms, hidle]
  · rfl

/-- A lease that is not there does not come back. -/
lemma Reclaimed.find?_eq_none {S : Store} {key : String} (h : Reclaimed grace now s S)
    (hnone : s.leases.find? key = none) : S.leases.find? key = none := by
  by_cases hkey : ∀ id, key = Lease.rolloutKey id → dooms s id = true →
      holds grace now s id = true
  · rw [h.leases key hkey, hnone]
  · push Not at hkey
    obtain ⟨id, rfl, hdoomed, hnot⟩ := hkey
    exact h.released id hdoomed (Bool.not_eq_true _ ▸ hnot)

lemma Reclaimed.before_purge {S : Store} {r : Rollout} (hs : Sound s)
    (hr : s.rollout? r.id = some r) (hdoomed : isDoomed r = true) (hnone : s.groupsOf r.id = [])
    (h : Reclaimed grace now (s.purged (gone now r)) S) : Reclaimed grace now s S := by
  -- no group is left that belongs to the rollout, so groups and actions are judged as before
  have hempty : ∀ {key g}, s.group? key = some g → g.rolloutId ≠ r.id := by
    intro key g hg hof
    obtain ⟨rfl, -⟩ := hs.group_key hg
    have hmem := hs.mem_groupsOf.2 ⟨hg, hof⟩
    rw [hnone] at hmem
    cases hmem
  have hrow : ∀ id, (s.purged (gone now r)).rollout? id =
      if id = r.id then some (gone now r) else s.rollout? id := rollout?_withRollout s (gone now r)
  have hlease : ∀ key, (s.purged (gone now r)).leases.find? key =
      if key = Lease.rolloutKey r.id then none else s.leases.find? key :=
    OrderedMap.find?_erase s.leases (Lease.rolloutKey r.id)
  have hdooms : ∀ id, id ≠ r.id → dooms (s.purged (gone now r)) id = dooms s id := by
    intro id hne
    rw [dooms, hrow, if_neg hne, ← dooms]
  have hgone : dooms (s.purged (gone now r)) r.id = false := by
    rw [dooms, hrow, if_pos rfl, Option.any_some, isDoomed_gone]
  have hheld : holds grace now s r.id = false := by rw [holds, hnone, List.any_nil]
  refine ⟨h.intact, fun key => (h.actions key).trans ?_, fun key => (h.groups key).trans ?_,
    fun id => (h.rollouts id).trans ?_, fun id hd hh => ?_, fun key hkey => ?_,
    h.targets, h.filters⟩
  · change (s.action? key).filter _ = _
    cases ha : s.action? key with
    | none => rfl
    | some a =>
      obtain ⟨g, hg, hof, -⟩ := hs.action_group ha
      rw [Option.filter_some, Option.filter_some, hdooms _ (hof ▸ hempty hg)]
  · change ((s.group? key).filter fun g => _ || keeps grace now s key).map _ = _
    cases hg : s.group? key with
    | none => rfl
    | some g =>
      rw [Option.filter_some, Option.filter_some, hdooms _ (hempty hg)]
      split
      · rw [Option.map_some, Option.map_some, hdooms _ (hempty hg)]
      · rfl
  · change ((s.purged (gone now r)).rollout? id).map
      (fun x => if isDoomed x && !holds grace now s id then _ else _) = _
    rw [hrow]
    split
    · rename_i hid
      simp [hid, hr, hdoomed, hheld, isDoomed_gone]
    · rfl
  · by_cases hid : id = r.id
    · exact h.find?_eq_none (by rw [hlease, if_pos (congrArg _ hid)])
    · exact h.released id ((hdooms id hid).trans hd) hh
  · have hne : key ≠ Lease.rolloutKey r.id := fun heq => by
      have hholds := hkey r.id heq (dooms_iff.2 ⟨r, hr, hdoomed⟩)
      rw [hheld] at hholds
      cases hholds
    rw [h.leases key fun id heq hd => ?_, hlease, if_neg hne]
    refine hkey id heq ((hdooms id ?_).symm.trans hd)
    rintro rfl
    exact hne heq

/-- **Every write of a pass leads to the same end.** -/
theorem Sweep.reclaimed {S : Store} (h : Sweep grace now s s') (hs : Sound s)
    (hend : Reclaimed grace now s' S) : Reclaimed grace now s S := by
  cases h with
  | rest => exact hend
  | dropAction ha hr hdoomed hidle => exact hend.before_dropAction hs ha hr hdoomed hidle
  | dropGroup hg hr hdoomed hnone => exact hend.before_dropGroup hs hg hr hdoomed hnone
  | purge hr hdoomed hnone => exact hend.before_purge hs hr hdoomed hnone

/-! ## Nothing left to do -/

/-- Nothing of a rollout is left that a pass may remove. -/
structure Tidy (grace now : Nat) (s : Store) (id : RolloutId) : Prop where
  held : ∃ key a, s.action? key = some a ∧ a.rolloutId = id ∧ isInFlight grace now a = true
  groups : ∀ {key g}, s.group? key = some g → g.rolloutId = id →
    ∃ k a, s.action? k = some a ∧ a.groupId = key ∧ isInFlight grace now a = true
  actions : ∀ {key a}, s.action? key = some a → a.rolloutId = id → isInFlight grace now a = true

/-- Nothing is left that a pass may remove. -/
def Clean (grace now : Nat) (s : Store) : Prop :=
  ∀ id r, s.rollout? id = some r → isDoomed r = true → Tidy grace now s id

/-- **A store in which nothing is left to do is what a pass leaves of it.** -/
theorem Clean.reclaimed (h : Clean grace now s) (hs : Sound s) : Reclaimed grace now s s := by
  have htidy : ∀ {id}, dooms s id = true → Tidy grace now s id := fun hd => by
    obtain ⟨r, hr, hdoomed⟩ := dooms_iff.1 hd
    exact h _ r hr hdoomed
  have hholds : ∀ {id}, dooms s id = true → holds grace now s id = true := fun hd => by
    obtain ⟨key, a, ha, hof, hfly⟩ := (htidy hd).held
    obtain ⟨g, hg, hofg, -⟩ := hs.action_group ha
    exact (holds_iff hs.toKeyed).2 ⟨_, g, hg, hofg.trans hof,
      (keeps_iff hs.toKeyed).2 ⟨key, a, ha, rfl, hfly⟩⟩
  refine ⟨⟨hs.rollouts_intact, hs.groups_intact, hs.actions_intact⟩, fun key => ?_, fun key => ?_,
    fun id => ?_, fun id hd hh => ?_, fun _ _ => rfl, rfl, rfl⟩
  · cases ha : s.action? key with
    | none => rfl
    | some a =>
      rw [Option.filter_some, if_pos]
      by_cases hd : dooms s a.rolloutId = true
      · simp [(htidy hd).actions ha rfl]
      · simp [Bool.not_eq_true _ ▸ hd]
  · cases hg : s.group? key with
    | none => rfl
    | some g =>
      have hcounts := hs.counts_eq hg
      by_cases hd : dooms s g.rolloutId = true
      · have hkeeps : keeps grace now s key = true :=
          (keeps_iff hs.toKeyed).2 ((htidy hd).groups hg rfl)
        simp [Option.filter_some, hd, hkeeps, ← hcounts]
      · simp [Option.filter_some, Bool.not_eq_true _ ▸ hd]
  · cases hr : s.rollout? id with
    | none => rfl
    | some r =>
      by_cases hd : isDoomed r = true
      · simp [hholds (dooms_iff.2 ⟨r, hr, hd⟩)]
      · simp [Bool.not_eq_true _ ▸ hd]
  · rw [hholds hd] at hh
    cases hh

end Cleanup

end StagedRollout
