/-
# Issued actions

Issuing actions writes those that do not exist yet, counts them and starts a group that waits.
The new actions are, in order, the ones without a row (`Store.missing`), so issuing the same
actions again creates none; a store stays sound if the group is running or may start
(`Sound.issued`).
-/
import StagedRollout.Progression.Issue
import StagedRollout.Proofs.Store.Transactions

namespace StagedRollout

open RolloutGroup Progression

/-- A running group all of whose members have an action. -/
def Progression.IsStaffed (g : RolloutGroup) : Prop :=
  g.state = .running ∧ g.targetCount ≤ g.counts.total

instance Progression.decidableIsStaffed (g : RolloutGroup) : Decidable (IsStaffed g) :=
  inferInstanceAs (Decidable (_ ∧ _))

namespace Store

variable {s : Store}

/-! ## New actions -/

/-- The actions that do not exist yet. -/
def missing (s : Store) (actions : List Action) : List Action :=
  actions.filter fun a => (s.action? a.id).isNone

/-- Counters with some more actions. -/
def countedUp (counts : StatusCounts) (actions : List Action) : StatusCounts :=
  actions.foldl (fun c a => c.increment a.status) counts

/-- The group behind actions that it got. -/
def begunWith (g : RolloutGroup) (actions : List Action) (now : Nat) : RolloutGroup :=
  Transaction.begun { g with counts := countedUp g.counts actions } now

/-- The store behind actions that a group got. -/
def issued (s : Store) (g : RolloutGroup) (actions : List Action) (now : Nat) : Store :=
  (s.withActions (s.missing actions)).withGroup (begunWith g (s.missing actions) now)

lemma mem_missing {actions : List Action} {a : Action} :
    a ∈ s.missing actions ↔ a ∈ actions ∧ s.action? a.id = none := by
  simp [missing]

lemma missing_sublist (s : Store) (actions : List Action) :
    (s.missing actions).Sublist actions := List.filter_sublist

lemma nodup_missing {actions : List Action} (hn : (actions.map (·.id)).Nodup) :
    ((s.missing actions).map (·.id)).Nodup :=
  hn.sublist ((s.missing_sublist actions).map _)

lemma missing_withAction {actions : List Action} {a : Action} (h : ∀ x ∈ actions, x.id ≠ a.id) :
    (s.withAction a).missing actions = s.missing actions := by
  refine List.filter_congr fun x hx => ?_
  rw [action?_withAction, if_neg (h x hx)]

end Store

namespace Transaction

open Store

variable {s : Store}

lemma issueEach_run {actions : List Action} (h : Table.Undamaged s.actions)
    (hn : (actions.map (·.id)).Nodup) (counts : StatusCounts) :
    issueEach actions counts s =
      .ok ((s.missing actions, countedUp counts (s.missing actions)),
        s.withActions (s.missing actions)) := by
  induction actions generalizing s counts with
  | nil => rfl
  | cons a actions ih =>
    obtain ⟨hne, htail⟩ := nodup_keys_cons hn
    rw [issueEach, bind_run (get_run s), Table.has_eq_isSome h, ← action?]
    cases ha : s.action? a.id with
    | some old =>
      have hskip : s.missing (a :: actions) = s.missing actions := by simp [missing, ha]
      rw [hskip]
      exact ih h htail counts
    | none =>
      have htake : s.missing (a :: actions) = a :: s.missing actions := by simp [missing, ha]
      have hrest := ih (s := s.withAction a) (h.put _ _) htail (counts.increment a.status)
      rw [missing_withAction hne] at hrest
      rw [htake]
      change (writeAction a >>= fun _ => issueEach actions (counts.increment a.status) >>= _) s = _
      rw [bind_run (writeAction_run a s), bind_run hrest]
      rfl

lemma issueActions_run {g : RolloutGroup} {actions : List Action} {now : Nat} (h : Keyed s)
    (hg : s.group? g.id = some g) (hn : (actions.map (·.id)).Nodup) :
    issueActions g.id actions now s =
      .ok (⟨begunWith g (s.missing actions) now, s.missing actions⟩, s.issued g actions now) := by
  rw [issueActions, bind_run (require_run h.groups_intact hg),
    bind_run (issueEach_run h.actions_intact hn g.counts)]
  rfl

end Transaction

namespace Store

variable {s : Store}

/-! ## Counting new actions -/

lemma get_countedUp (counts : StatusCounts) (actions : List Action) (status : ActionStatus) :
    (countedUp counts actions).get status =
      counts.get status + actions.countP fun a => a.status == status := by
  induction actions generalizing counts with
  | nil => simp [countedUp]
  | cons a actions ih =>
    have hstep := ih (counts.increment a.status)
    rw [countedUp, List.foldl_cons, ← countedUp, hstep, StatusCounts.get_increment,
      List.countP_cons]
    by_cases hs : status = a.status
    · simp only [hs, if_true, beq_self_eq_true]
      omega
    · have hb : (a.status == status) = false := beq_false_of_ne (Ne.symm hs)
      simp only [hs, if_false, hb, Bool.false_eq_true]
      omega

lemma tally_withActions {actions : List Action} (hn : (actions.map (·.id)).Nodup)
    (hnew : ∀ a ∈ actions, s.action? a.id = none) (id : GroupId) (status : ActionStatus) :
    (s.withActions actions).tally id status =
      s.tally id status + actions.countP fun a => a.groupId == id && a.status == status := by
  induction actions generalizing s with
  | nil => rfl
  | cons a actions ih =>
    obtain ⟨hne, htail⟩ := nodup_keys_cons hn
    have hrest := ih (s := s.withAction a) htail fun x hx => by
      rw [action?_withAction, if_neg (hne x hx)]
      exact hnew x (List.mem_cons_of_mem _ hx)
    rw [withActions, List.foldl_cons, ← withActions, hrest,
      tally_withAction_of_none _ (hnew a List.mem_cons_self), List.countP_cons, share]
    by_cases hs : a.groupId = id ∧ a.status = status
    · simp only [hs, and_self, if_true, beq_self_eq_true, Bool.and_self]
      omega
    · have hb : (a.groupId == id && a.status == status) = false := by
        rw [Bool.and_eq_false_iff, beq_eq_false_iff_ne, beq_eq_false_iff_ne]
        by_contra hboth
        exact hs (by simpa [not_or] using hboth)
      simp only [hs, if_false, hb, Bool.false_eq_true]
      omega

/-- Actions for members of a group. -/
structure IssuedTo (g : RolloutGroup) (a : Action) : Prop where
  id : a.id = Action.idOf a.groupId a.targetId
  group : a.groupId = g.id
  rollout : a.rolloutId = g.rolloutId
  member : a.targetId ∈ g.targets

lemma Keyed.withActions {g : RolloutGroup} {actions : List Action} (h : Keyed s)
    (hg : s.group? g.id = some g) (hactions : ∀ a ∈ actions, IssuedTo g a) :
    Keyed (s.withActions actions) := by
  induction actions generalizing s with
  | nil => exact h
  | cons a actions ih =>
    have ha := hactions a List.mem_cons_self
    have hkeyed := h.withAction ha.id (ha.group ▸ hg) ha.rollout.symm ha.member
    exact ih hkeyed hg fun x hx => hactions x (List.mem_cons_of_mem _ hx)

/-! ## The group behind its new actions -/

lemma begunWith_of_running {g : RolloutGroup} (hs : g.state = .running) (actions : List Action)
    (now : Nat) :
    begunWith g actions now = { g with counts := countedUp g.counts actions } := by
  simp [begunWith, Transaction.begun, hs]

lemma begunWith_of_scheduled {g : RolloutGroup} (hs : g.state = .scheduled)
    (actions : List Action) (now : Nat) :
    begunWith g actions now = { g with
      counts := countedUp g.counts actions, state := .running, startedAt := some now } := by
  simp [begunWith, Transaction.begun, hs]

lemma sameRoster_begunWith (g : RolloutGroup) (actions : List Action) (now : Nat) :
    SameRoster g (begunWith g actions now) := by
  unfold begunWith Transaction.begun
  split <;> exact ⟨rfl, rfl, rfl, rfl⟩

@[simp] lemma rolloutId_begunWith (g : RolloutGroup) (actions : List Action) (now : Nat) :
    (begunWith g actions now).rolloutId = g.rolloutId := by
  unfold begunWith Transaction.begun
  split <;> rfl

@[simp] lemma counts_begunWith (g : RolloutGroup) (actions : List Action) (now : Nat) :
    (begunWith g actions now).counts = countedUp g.counts actions := by
  unfold begunWith Transaction.begun
  split <;> rfl

/-- A group may get actions: it is running, or it is its turn to start. -/
def MayIssue (groups : List RolloutGroup) (g : RolloutGroup) : Prop :=
  g.state = .running ∨
    g.state = .scheduled ∧ ∀ x ∈ groups, x.index < g.index → x.releasesSuccessor = true

/-- A running rollout agrees with its groups where one of them got actions. -/
lemma Sound.agrees_issued {r : Rollout} {g : RolloutGroup} {f : RolloutGroup → RolloutGroup}
    {actions : List Action} {now : Nat} (h : Sound s) (hr : s.rollout? r.id = some r)
    (hrun : r.state = .running) (hg : g ∈ s.groupsOf r.id) (hmay : MayIssue (s.groupsOf r.id) g)
    (hf : Replacing (s.groupsOf r.id) g (begunWith g actions now) f) :
    r.AgreesWith ((s.groupsOf r.id).map f) := by
  have hroster := sameRoster_begunWith g actions now
  have hfg : f g = begunWith g actions now := by
    rcases hf g hg with ⟨-, heq⟩ | ⟨hne, -⟩
    · exact heq
    · exact absurd rfl hne
  have hother : ∀ x ∈ s.groupsOf r.id, x ≠ g → f x = x := by
    intro x hx hne
    rcases hf x hx with ⟨rfl, -⟩ | ⟨-, heq⟩
    · exact absurd rfl hne
    · exact heq
  rcases hmay with hs | ⟨hs, hturn⟩
  -- a group that runs stays where it is
  · obtain ⟨-, hstuck⟩ := h.current_of_running hr hrun hg hs
    rw [begunWith_of_running hs] at hf hroster
    refine (h.agrees hr).progress hrun (hf.follows hroster (.inl ⟨rfl, rfl, rfl, ?_⟩))
      fun x hx => ?_
    · exact fun hw => by simp [hs] at hw
    · rcases hf x hx with ⟨rfl, heq⟩ | ⟨-, heq⟩
      · rw [heq]
        exact fun hx => by simp [IsStuck, hs] at hx
      · rw [heq]
        exact hstuck x hx
  -- a group that waits becomes the current one
  · have hd := (h.agrees hr).deleted_eq_false_of_running hrun
    have hack := ((h.agrees hr).staged hd).untouched_of_scheduled hg hs
    refine (h.agrees hr).start hrun (h.groupsOf_index_lt r.id) hg hs hturn ?_ ?_
      (hfg ▸ hroster) hother
    · rw [hfg, begunWith_of_scheduled hs]
      exact ⟨.inl rfl, hack.2.2⟩
    · rw [hfg, begunWith_of_scheduled hs]
      exact fun hx => by simp [IsStuck] at hx

/-- **A group whose turn it is may get actions.** -/
theorem Sound.issued {r : Rollout} {g : RolloutGroup} {actions : List Action} {now : Nat}
    (h : Sound s) (hr : s.rollout? r.id = some r) (hrun : r.state = .running)
    (hg : g ∈ s.groupsOf r.id) (hmay : MayIssue (s.groupsOf r.id) g)
    (hn : (actions.map (·.id)).Nodup) (hactions : ∀ a ∈ actions, IssuedTo g a) :
    Sound (s.issued g actions now) := by
  obtain ⟨hstored, hrid⟩ := h.mem_groupsOf.1 hg
  have hroster := sameRoster_begunWith g (s.missing actions) now
  have hnew : ∀ a ∈ s.missing actions, s.action? a.id = none := fun a ha =>
    (mem_missing.1 ha).2
  have hto : ∀ a ∈ s.missing actions, IssuedTo g a := fun a ha =>
    hactions a (mem_missing.1 ha).1
  have hold : s.group? (begunWith g (s.missing actions) now).id = some g := by
    rw [hroster.id]
    exact hstored
  refine h.recount (h.toKeyed.withActions hstored hto) (rollouts_withActions s _)
    (groups_withActions s _) hold (r := r) ?_ hroster (rolloutId_begunWith g _ now)
    (fun status => ?_) (fun id hne status => ?_) ?_
  · rw [rolloutId_begunWith, hrid]
    exact hr
  · rw [counts_begunWith, get_countedUp, hroster.id, tally_withActions (nodup_missing hn) hnew,
      h.counted hstored status]
    congr 1
    refine List.countP_congr fun a ha => ?_
    simp [(hto a ha).group]
  · rw [hroster.id] at hne
    rw [tally_withActions (nodup_missing hn) hnew]
    have hzero : ((s.missing actions).countP fun a => a.groupId == id && a.status == status) = 0 := by
      refine List.countP_eq_zero.2 fun a ha => ?_
      simp [(hto a ha).group, Ne.symm hne]
    omega
  · rw [rolloutId_begunWith, hrid]
    exact h.agrees_issued hr hrun hg hmay fun x hx => h.toKeyed.replacedBy_eq hx hold

end Store

end StagedRollout
