/-
# Rollouts and their groups

What the row of a rollout says about its groups, that is its state, its last error, its members
and its totals, is `Rollout.AgreesWith`.  The lemmas here say which changes of the row and of the
groups keep the agreement; they know lists of groups only, not how these are stored.
-/
import StagedRollout.Proofs.Progression.Staged
import StagedRollout.Rollout.Error
import StagedRollout.Rollout.Transition
import StagedRollout.Rollout.Verdict

namespace StagedRollout

open RolloutGroup

/-! ## The moves of a rollout's state -/

/-- A command takes a rollout from one state to another, with one rule for each row of the
table. -/
inductive RolloutState.Leads : RolloutState → Command → RolloutState → Prop
  | createdGated : Leads .creating (.created true) .waitingForApproval
  | created : Leads .creating (.created false) .ready
  | approve : Leads .waitingForApproval .approve .ready
  | deny : Leads .waitingForApproval .deny .approvalDenied
  | start : Leads .ready .start .starting
  | started : Leads .starting .started .running
  | pause : Leads .running .pause .paused
  | groupPaused : Leads .running (.groupFailed .pause) .paused
  | resume : Leads .paused .resume .running
  | stopRunning : Leads .running .stop .stopped
  | stopPaused : Leads .paused .stop .stopped
  | stopStarting : Leads .starting .stop .stopped
  | groupStopped : Leads .running (.groupFailed .stop) .error
  | gaveUpRunning : Leads .running .retriesExhausted .error
  | gaveUpStarting : Leads .starting .retriesExhausted .error
  | finished : Leads .running .allGroupsFinished .finished
  | delete {source : RolloutState} : source ≠ .deleting → source ≠ .deleted →
      Leads source .delete .deleting
  | purged : Leads .deleting .purged .deleted

lemma RolloutState.leads_of_next {source dest : RolloutState} {c : Command}
    (h : source.next c = some dest) : Leads source c dest := by
  cases c with
  | delete =>
    cases source with
    | deleting | deleted => simp [next] at h
    | _ =>
      obtain rfl : RolloutState.deleting = dest := by simpa [next] using h
      exact .delete (by simp) (by simp)
  | created approval =>
    cases approval <;> cases source <;> simp only [next, Option.some.injEq, reduceCtorEq] at h <;>
      (subst h; constructor)
  | groupFailed action =>
    cases action <;> cases source <;> simp only [next, Option.some.injEq, reduceCtorEq] at h <;>
      (subst h; constructor)
  | _ =>
    cases source <;> simp only [next, Option.some.injEq, reduceCtorEq] at h <;>
      (subst h; constructor)

namespace RolloutState.Leads

variable {source dest dest' : RolloutState} {c : Command}

/-- From the deletion of a rollout on there is one way to go. -/
lemma of_deleted (h : Leads source c dest) (hsource : source = .deleting ∨ source = .deleted) :
    source = .deleting ∧ c = .purged ∧ dest = .deleted := by
  cases h with
  | purged => exact ⟨rfl, rfl, rfl⟩
  | delete hdeleting hdeleted => exact absurd hsource (by simp [hdeleting, hdeleted])
  | _ => simp at hsource

/-- No command is followed twice in a row. -/
lemma not_again (h : Leads source c dest) : ¬ Leads dest c dest' := by
  intro h'
  cases h with
  | delete =>
    cases h' with
    | delete hne => exact hne rfl
  | _ => cases h'

end RolloutState.Leads

lemma Rollout.apply?_eq_some {r r' : Rollout} {c : Command} {now : Nat}
    (h : r.apply? c now = some r') :
    r.state.Leads c r'.state ∧
      r' = { r with
        state := r'.state
        updatedAt := now
        deleted := if c = .delete then true else r.deleted
        lastError := if c = .resume ∨ c = .start then none else r.lastError } := by
  refine ⟨RolloutState.leads_of_next <| state_apply? h, ?_⟩
  unfold Rollout.apply? at h
  split at h
  · simp at h
  · exact (Option.some.inj h) ▸ rfl

lemma Rollout.apply_eq_ok {r r' : Rollout} {c : Command} {now : Nat}
    (h : r.apply c now = .ok r') : r.apply? c now = some r' := by
  unfold Rollout.apply at h
  split at h
  · rename_i happly
    exact happly.trans (congrArg some (Except.ok.inj h))
  · exact absurd h (by simp)

lemma Rollout.id_of_apply {r r' : Rollout} {c : Command} {now : Nat}
    (h : r.apply? c now = some r') : r'.id = r.id := by
  rw [congrArg Rollout.id (apply?_eq_some h).2]

lemma Rollout.running_of_groupFailed {r r' : Rollout} {action : ErrorAction} {now : Nat}
    (h : r.apply? (.groupFailed action) now = some r') : r.state = .running := by
  have hleads := (apply?_eq_some h).1
  generalize r.state = source at hleads ⊢
  generalize r'.state = dest at hleads
  cases hleads <;> rfl

/-! ## What a row says -/

/-- A group with devices that join it. -/
def RolloutGroup.joined (g : RolloutGroup) (added : List TargetId) : RolloutGroup :=
  { g with targets := g.targets ++ added, targetCount := g.targetCount + added.length }

/-- What a rollout's state and its last error say about its groups. -/
def Fits (state : RolloutState) (lastError : Option String) (groups : List RolloutGroup) : Prop :=
  match state with
  | .creating | .waitingForApproval | .approvalDenied | .ready =>
    ∀ g ∈ groups, g.state = .scheduled
  | .starting => (∀ g ∈ groups, g.state = .scheduled) ∧ lastError = none
  | .running => (∀ g ∈ groups, ¬ g.IsStuck) ∧ lastError = none
  | .paused =>
    (lastError.isSome = true ↔ ∃ g ∈ groups, g.IsStuck) ∧
      ∀ g ∈ groups, g.IsStuck → g.errorAction = .pause
  | .finished => ∀ g ∈ groups, g.releasesSuccessor = true
  | .error => lastError.isSome = true
  | .stopped | .deleting | .deleted => True

/-- What a rollout's row says about the members of its groups. -/
structure Rollout.Roster (r : Rollout) (groups : List RolloutGroup) : Prop where
  ids : groups.map (·.id) = r.groupIds
  indices : groups.map (·.index) = List.range groups.length
  sizes : ∀ g ∈ groups, g.targetCount = g.targets.length
  disjoint : (groups.flatMap (·.targets)).Nodup
  total : (groups.map (·.targetCount)).sum = r.totalTargets

/-- What a rollout's row and its groups, in the order of their indices, have to do with each
other.  Most of it ends with the deletion of the rollout, when its groups are reclaimed one by
one. -/
structure Rollout.AgreesWith (r : Rollout) (groups : List RolloutGroup) : Prop where
  deleted_iff : r.deleted = true ↔ r.state = .deleting ∨ r.state = .deleted
  roster : r.deleted = false → r.Roster groups
  staged : r.deleted = false → Staged groups
  fits : r.deleted = false → Fits r.state r.lastError groups

section

variable {state : RolloutState} {lastError : Option String} {groups : List RolloutGroup}
  {f : RolloutGroup → RolloutGroup}

lemma Fits.map (h : Fits state lastError groups) (hf : ∀ g ∈ groups, SameStage g (f g)) :
    Fits state lastError (groups.map f) := by
  have hstate : (∀ g ∈ groups, g.state = .scheduled) →
      ∀ g ∈ groups.map f, g.state = .scheduled := fun hs x hx => by
    obtain ⟨g, hg, rfl⟩ := List.mem_map.1 hx
    exact (hf g hg).state.trans (hs g hg)
  have hstuck : ∀ x ∈ groups.map f, x.IsStuck → ∃ g ∈ groups, x = f g ∧ g.IsStuck := by
    intro x hx hsx
    obtain ⟨g, hg, rfl⟩ := List.mem_map.1 hx
    exact ⟨g, hg, rfl, (hf g hg).stuck_iff.1 hsx⟩
  cases state with
  | creating | waitingForApproval | approvalDenied | ready => exact hstate h
  | starting => exact ⟨hstate h.1, h.2⟩
  | running =>
    refine ⟨fun x hx hsx => ?_, h.2⟩
    obtain ⟨g, hg, -, hsg⟩ := hstuck x hx hsx
    exact h.1 g hg hsg
  | paused =>
    refine ⟨h.1.trans ⟨?_, ?_⟩, fun x hx hsx => ?_⟩
    · rintro ⟨g, hg, hsg⟩
      exact ⟨f g, List.mem_map_of_mem hg, (hf g hg).stuck_iff.2 hsg⟩
    · rintro ⟨x, hx, hsx⟩
      obtain ⟨g, hg, -, hsg⟩ := hstuck x hx hsx
      exact ⟨g, hg, hsg⟩
    · obtain ⟨g, hg, rfl, hsg⟩ := hstuck x hx hsx
      exact (hf g hg).errorAction.trans (h.2 g hg hsg)
  | finished =>
    intro x hx
    obtain ⟨g, hg, rfl⟩ := List.mem_map.1 hx
    exact (hf g hg).releases.trans (h g hg)
  | error => exact h
  | stopped | deleting | deleted => trivial

variable {r : Rollout}

lemma map_eq_map_of_sameRoster {β : Type} {p : RolloutGroup → β}
    (hp : ∀ g ∈ groups, p (f g) = p g) : (groups.map f).map p = groups.map p := by
  rw [List.map_map]
  exact List.map_congr_left hp

lemma flatMap_targets_map (hf : ∀ g ∈ groups, SameRoster g (f g)) :
    (groups.map f).flatMap (·.targets) = groups.flatMap (·.targets) := by
  rw [List.flatMap_map]
  exact List.flatMap_congr fun g hg => (hf g hg).targets

lemma Rollout.Roster.map (h : r.Roster groups) (hf : ∀ g ∈ groups, SameRoster g (f g)) :
    r.Roster (groups.map f) where
  ids := (map_eq_map_of_sameRoster fun g hg => (hf g hg).id).trans h.ids
  indices := by
    rw [map_eq_map_of_sameRoster fun g hg => (hf g hg).index, List.length_map]
    exact h.indices
  sizes := by
    intro x hx
    obtain ⟨g, hg, rfl⟩ := List.mem_map.1 hx
    rw [(hf g hg).targetCount, (hf g hg).targets]
    exact h.sizes g hg
  disjoint := by
    rw [flatMap_targets_map hf]
    exact h.disjoint
  total := by
    rw [map_eq_map_of_sameRoster fun g hg => (hf g hg).targetCount]
    exact h.total

/-- Groups may be replaced by groups at the same point with the same members; those of a deleted
rollout by any groups. -/
lemma Rollout.AgreesWith.map (h : r.AgreesWith groups)
    (hf : r.deleted = false → ∀ g ∈ groups, SameRoster g (f g) ∧ SameStage g (f g)) :
    r.AgreesWith (groups.map f) where
  deleted_iff := h.deleted_iff
  roster hd := (h.roster hd).map fun g hg => (hf hd g hg).1
  staged hd := (h.staged hd).map fun g hg => .inl (hf hd g hg).2
  fits hd := (h.fits hd).map fun g hg => (hf hd g hg).2

lemma Rollout.AgreesWith.of_deleted {groups' : List RolloutGroup} (h : r.AgreesWith groups)
    (hd : r.deleted = true) : r.AgreesWith groups' where
  deleted_iff := h.deleted_iff
  roster hd' := by simp [hd] at hd'
  staged hd' := by simp [hd] at hd'
  fits hd' := by simp [hd] at hd'

end

/-! ## Changes of a row -/

/-- The commands that a rollout may follow whatever its groups are. -/
def Command.sparesGroups : Command → Bool
  | .approve | .deny | .start | .started | .pause | .stop | .delete | .purged => true
  | _ => false

/-- The commands behind which nothing is left to do but to write the row.  A stop asks devices to
cancel, and a purge comes behind the removal of the groups. -/
def Command.isPlain : Command → Bool
  | .approve | .deny | .start | .started | .pause | .delete => true
  | _ => false

lemma Command.sparesGroups_of_isPlain {c : Command} (h : c.isPlain = true) :
    c.sparesGroups = true := by
  cases c <;> simp_all [isPlain, sparesGroups]

namespace Rollout

variable {r r' : Rollout} {groups : List RolloutGroup} {f : RolloutGroup → RolloutGroup}
  {now : Nat}

lemma Roster.congr (h : r.Roster groups) (hids : r'.groupIds = r.groupIds)
    (htotal : r'.totalTargets = r.totalTargets) : r'.Roster groups where
  ids := h.ids.trans hids.symm
  indices := h.indices
  sizes := h.sizes
  disjoint := h.disjoint
  total := h.total.trans htotal.symm

namespace AgreesWith

/-- The deletion mark stays true to the state behind every command. -/
lemma deleted_iff_after {c : Command} (h : r.AgreesWith groups)
    (happly : r.apply? c now = some r') :
    r'.deleted = true ↔ r'.state = .deleting ∨ r'.state = .deleted := by
  obtain ⟨hleads, hrow⟩ := apply?_eq_some happly
  have hdeleted := h.deleted_iff
  rw [congrArg deleted hrow]
  clear hrow
  generalize r.state = source at hleads hdeleted
  generalize r'.state = dest at hleads
  cases hleads <;> simp_all

lemma deleted_eq_false (h : r.AgreesWith groups) (hdeleting : r.state ≠ .deleting)
    (hgone : r.state ≠ .deleted) : r.deleted = false := by
  cases hd : r.deleted with
  | false => rfl
  | true =>
    rcases h.deleted_iff.1 hd with hs | hs
    · exact absurd hs hdeleting
    · exact absurd hs hgone

lemma deleted_eq_false_of_running (h : r.AgreesWith groups) (hrun : r.state = .running) :
    r.deleted = false := h.deleted_eq_false (by simp [hrun]) (by simp [hrun])

/-- A rollout that is not deleted behind a command was not deleted before it either. -/
lemma deleted_eq_false_before {c : Command} (happly : r.apply? c now = some r')
    (hd : r'.deleted = false) : c ≠ .delete ∧ r.deleted = false := by
  rw [(apply?_eq_some happly).2] at hd
  by_cases hc : c = .delete
  · simp [hc] at hd
  · simpa [hc] using hd

/-- What has to be shown of the row behind a command and of the groups next to it. -/
lemma after {c : Command} {groups' : List RolloutGroup} (h : r.AgreesWith groups)
    (happly : r.apply? c now = some r') (hroster : r.Roster groups → r.Roster groups')
    (hstaged : Staged groups → Staged groups') (reason : Option String)
    (hfits : c ≠ .delete → Fits r.state r.lastError groups → Fits r'.state reason groups') :
    ({ r' with lastError := reason } : Rollout).AgreesWith groups' where
  deleted_iff := show r'.deleted = true ↔ _ from h.deleted_iff_after happly
  roster hd := by
    refine (hroster (h.roster (deleted_eq_false_before happly hd).2)).congr ?_ ?_ <;>
      rw [(apply?_eq_some happly).2]
  staged hd := hstaged (h.staged (deleted_eq_false_before happly hd).2)
  fits hd := by
    obtain ⟨hne, hd⟩ := deleted_eq_false_before happly hd
    exact hfits hne (h.fits hd)

/-- **Commands that spare the groups keep the agreement.** -/
theorem order {c : Command} (h : r.AgreesWith groups) (hc : c.sparesGroups = true)
    (happly : r.apply? c now = some r') : r'.AgreesWith groups := by
  refine h.after happly (fun hr => hr) (fun hs => hs) r'.lastError fun hne hfits => ?_
  obtain ⟨hleads, hrow⟩ := apply?_eq_some happly
  rw [congrArg lastError hrow]
  clear hrow
  generalize r.state = source at hleads hfits
  generalize r'.state = dest at hleads ⊢
  cases hleads with
  | approve | deny => exact hfits
  | start => exact ⟨hfits, rfl⟩
  | started =>
    refine ⟨fun g hg hs => ?_, hfits.2⟩
    simp [hfits.1 g hg, IsStuck] at hs
  | pause =>
    -- a running rollout has neither an error nor a group that is stuck
    have hnone : ¬ ∃ g ∈ groups, g.IsStuck := by
      rintro ⟨g, hg, hs⟩
      exact hfits.1 g hg hs
    exact ⟨by simp [hfits.2, hnone], fun g hg hs => absurd hs (hfits.1 g hg)⟩
  | stopRunning | stopPaused | stopStarting | purged => trivial
  | delete => exact absurd rfl hne
  | createdGated | created | groupPaused | resume | groupStopped | gaveUpRunning
  | gaveUpStarting | finished => simp [Command.sparesGroups] at hc

/-- A rollout whose groups all let their successor start may finish. -/
lemma finish (h : r.AgreesWith groups) (hall : ∀ g ∈ groups, g.releasesSuccessor = true)
    (happly : r.apply? .allGroupsFinished now = some r') : r'.AgreesWith groups := by
  refine h.after happly (fun hr => hr) (fun hs => hs) r'.lastError fun _ _ => ?_
  have hleads := (apply?_eq_some happly).1
  generalize r.state = source at hleads
  generalize r'.state = dest at hleads ⊢
  cases hleads
  exact hall

/-- A rollout may be given up with a reason. -/
lemma giveUp (h : r.AgreesWith groups) (happly : r.apply? .retriesExhausted now = some r')
    (reason : String) :
    ({ r' with lastError := some reason } : Rollout).AgreesWith groups := by
  refine h.after happly (fun hr => hr) (fun hs => hs) (some reason) fun _ _ => ?_
  have hleads := (apply?_eq_some happly).1
  generalize r.state = source at hleads
  generalize r'.state = dest at hleads ⊢
  cases hleads <;> rfl

/-- Fields of the row that say nothing about groups may change. -/
lemma congr (h : r.AgreesWith groups) (hstate : r'.state = r.state)
    (hdeleted : r'.deleted = r.deleted) (herror : r'.lastError = r.lastError)
    (hids : r'.groupIds = r.groupIds) (htotal : r'.totalTargets = r.totalTargets) :
    r'.AgreesWith groups where
  deleted_iff := by
    rw [hdeleted, hstate]
    exact h.deleted_iff
  roster hd := (h.roster (hdeleted ▸ hd)).congr hids htotal
  staged hd := h.staged (hdeleted ▸ hd)
  fits hd := by
    rw [hstate, herror]
    exact h.fits (hdeleted ▸ hd)

/-! ## Changes of groups -/

/-- The groups of a running rollout may be replaced by groups that follow them and are not
stuck. -/
lemma progress (h : r.AgreesWith groups) (hrun : r.state = .running)
    (hf : ∀ g ∈ groups, SameRoster g (f g) ∧ Follows g (f g))
    (hstuck : ∀ g ∈ groups, ¬ (f g).IsStuck) : r.AgreesWith (groups.map f) where
  deleted_iff := h.deleted_iff
  roster hd := (h.roster hd).map fun g hg => (hf g hg).1
  staged hd := (h.staged hd).map fun g hg => (hf g hg).2
  fits hd := by
    have hfits := h.fits hd
    rw [hrun] at hfits ⊢
    refine ⟨fun x hx => ?_, hfits.2⟩
    obtain ⟨g, hg, rfl⟩ := List.mem_map.1 hx
    exact hstuck g hg

/-- A paused rollout goes on once none of its groups is stuck. -/
lemma resume (h : r.AgreesWith groups) (happly : r.apply? .resume now = some r')
    (hf : ∀ g ∈ groups, SameRoster g (f g) ∧ Follows g (f g))
    (hstuck : ∀ g ∈ groups, ¬ (f g).IsStuck) : r'.AgreesWith (groups.map f) := by
  refine h.after happly (fun hr => hr.map fun g hg => (hf g hg).1)
    (fun hs => hs.map fun g hg => (hf g hg).2) r'.lastError fun _ _ => ?_
  obtain ⟨hleads, hrow⟩ := apply?_eq_some happly
  rw [congrArg lastError hrow]
  clear hrow
  generalize r.state = source at hleads
  generalize r'.state = dest at hleads ⊢
  cases hleads
  refine ⟨fun x hx => ?_, rfl⟩
  obtain ⟨g, hg, rfl⟩ := List.mem_map.1 hx
  exact hstuck g hg

/-- A group that gets stuck takes its rollout with it, the way its error action says. -/
lemma fail {action : ErrorAction} (h : r.AgreesWith groups)
    (happly : r.apply? (.groupFailed action) now = some r')
    (hf : ∀ g ∈ groups, SameRoster g (f g) ∧ Follows g (f g))
    (hstuck : ∃ g ∈ groups, (f g).IsStuck)
    (haction : ∀ g ∈ groups, (f g).IsStuck → (f g).errorAction = action) (reason : String) :
    ({ r' with lastError := some reason } : Rollout).AgreesWith (groups.map f) := by
  refine h.after happly (fun hr => hr.map fun g hg => (hf g hg).1)
    (fun hs => hs.map fun g hg => (hf g hg).2) (some reason) fun _ _ => ?_
  have hleads := (apply?_eq_some happly).1
  generalize r.state = source at hleads
  generalize r'.state = dest at hleads ⊢
  cases hleads with
  | groupStopped => rfl
  | groupPaused =>
    obtain ⟨g, hg, hs⟩ := hstuck
    refine ⟨⟨fun _ => ⟨f g, List.mem_map_of_mem hg, hs⟩, fun _ => rfl⟩, fun x hx hsx => ?_⟩
    obtain ⟨y, hy, rfl⟩ := List.mem_map.1 hx
    exact haction y hy hsx

end AgreesWith

/-! ## Changes of one group -/

section

variable {g last : RolloutGroup} {front rest : List RolloutGroup} {added : List TargetId}

/-- The only group that changes is found by its index. -/
lemma map_eq_replace (hsorted : (front ++ g :: rest).Pairwise fun a b => a.index < b.index)
    (hf : ∀ x ∈ front ++ g :: rest, x ≠ g → f x = x) :
    (front ++ g :: rest).map f = front ++ f g :: rest := by
  obtain ⟨-, htail, hfront⟩ := List.pairwise_append.1 hsorted
  have hrest := (List.pairwise_cons.1 htail).1
  have hkeep : ∀ x, x ∈ front ∨ x ∈ rest → f x = x := by
    rintro x (hx | hx)
    · refine hf x (by simp [hx]) fun heq => ?_
      have hlt := hfront x hx g List.mem_cons_self
      rw [heq] at hlt
      omega
    · refine hf x (by simp [hx]) fun heq => ?_
      have hlt := hrest x hx
      rw [heq] at hlt
      omega
  rw [List.map_append, List.map_cons, List.map_congr_left fun x hx => hkeep x (.inl hx),
    List.map_congr_left fun x hx => hkeep x (.inr hx), List.map_id', List.map_id']

/-- A group that waits may start once every group before it lets its successor start. -/
lemma AgreesWith.start (h : r.AgreesWith groups) (hrun : r.state = .running)
    (hsorted : groups.Pairwise fun a b => a.index < b.index) (hg : g ∈ groups)
    (hwaits : g.state = .scheduled)
    (hbefore : ∀ x ∈ groups, x.index < g.index → x.releasesSuccessor = true)
    (hcurrent : (f g).IsCurrent) (hstuck : ¬ (f g).IsStuck) (hroster : SameRoster g (f g))
    (hf : ∀ x ∈ groups, x ≠ g → f x = x) : r.AgreesWith (groups.map f) where
  deleted_iff := h.deleted_iff
  roster hd := by
    refine (h.roster hd).map fun x hx => ?_
    by_cases hxg : x = g
    · rw [hxg]
      exact hroster
    · rw [hf x hx hxg]
      exact SameRoster.refl x
  staged hd := by
    have hstaged := h.staged hd
    obtain ⟨front, rest, rfl⟩ := List.append_of_mem hg
    -- in front of the group all let their successor start, and behind it all wait
    have hfront : ∀ x ∈ front, x.releasesSuccessor = true := fun x hx =>
      hbefore x (by simp [hx]) ((List.pairwise_append.1 hsorted).2.2 x hx g List.mem_cons_self)
    have hrest := (Staged.of_prepend hfront hstaged).behind_waiting hwaits
    rw [map_eq_replace hsorted hf]
    exact Staged.replace hfront hrest.2 (.inl hcurrent)
  fits hd := by
    have hfits := h.fits hd
    rw [hrun] at hfits ⊢
    refine ⟨fun x hx => ?_, hfits.2⟩
    obtain ⟨y, hy, rfl⟩ := List.mem_map.1 hx
    by_cases hyg : y = g
    · rw [hyg]
      exact hstuck
    · rw [hf y hy hyg]
      exact hfits.1 y hy

/-- Devices that are new to the rollout may join its last group. -/
lemma Roster.join (h : r.Roster (front ++ [last])) (hnodup : added.Nodup)
    (hfresh : ∀ t ∈ added, ∀ x ∈ front ++ [last], t ∉ x.targets) :
    ({ r with totalTargets := r.totalTargets + added.length } : Rollout).Roster
      (front ++ [last.joined added]) where
  ids := by simpa [joined] using h.ids
  indices := by simpa [joined] using h.indices
  sizes := by
    intro x hx
    rcases List.mem_append.1 hx with hx | hx
    · exact h.sizes x (by simp [hx])
    · obtain rfl := List.mem_singleton.1 hx
      have hsize := h.sizes last (by simp)
      simp [joined, hsize]
  disjoint := by
    have hold := h.disjoint
    have hdisjoint : List.Disjoint ((front ++ [last]).flatMap (·.targets)) added := by
      intro t ht hadded
      obtain ⟨x, hx, htx⟩ := List.mem_flatMap.1 ht
      exact hfresh t hadded x hx htx
    have hall : (front ++ [last.joined added]).flatMap (·.targets) =
        (front ++ [last]).flatMap (·.targets) ++ added := by
      simp [joined]
    rw [hall]
    exact List.nodup_append'.2 ⟨hold, hnodup, hdisjoint⟩
  total := by
    have htotal := h.total
    simp only [List.map_append, List.map_cons, List.map_nil, List.sum_append, List.sum_cons,
      List.sum_nil, joined] at htotal ⊢
    omega

lemma AgreesWith.join (h : r.AgreesWith groups)
    (hsorted : groups.Pairwise fun a b => a.index < b.index)
    (hlast : groups.getLast? = some last) (hnodup : added.Nodup)
    (hfresh : ∀ t ∈ added, ∀ x ∈ groups, t ∉ x.targets) (hjoin : f last = last.joined added)
    (hf : ∀ x ∈ groups, x ≠ last → f x = x) :
    ({ r with totalTargets := r.totalTargets + added.length } : Rollout).AgreesWith
      (groups.map f) := by
  have hstage : ∀ x ∈ groups, SameStage x (f x) := by
    intro x hx
    by_cases hxl : x = last
    · rw [hxl, hjoin]
      exact ⟨rfl, rfl, rfl, fun _ => rfl⟩
    · rw [hf x hx hxl]
      exact SameStage.refl x
  refine ⟨h.deleted_iff, fun hd => ?_, fun hd => (h.staged hd).map fun x hx => .inl (hstage x hx),
    fun hd => (h.fits hd).map hstage⟩
  obtain ⟨front, rfl⟩ := List.getLast?_eq_some_iff.1 hlast
  rw [map_eq_replace hsorted hf, hjoin]
  exact (h.roster hd).join hnodup hfresh

end

end Rollout

end StagedRollout
