/-
# What a step says of itself

A step of a scheduler tells the states of the rollout before and behind it, how many groups it has
started and how many it has ended.  The walk counts along: its counters are the number of groups
that it has come past and that are started or ended now but were not when it began (`Account`).

A step that tells of no progress has written nothing (`Told.still`), with one exception.  Where a
running group lacks the actions of some members, the step issues them, and no counter speaks of it
(`Lags`).
-/
import StagedRollout.Proofs.LeftOut
import StagedRollout.Proofs.Progression.Arrival

namespace StagedRollout

open RolloutGroup Store Transaction

namespace Progression

variable {s s' s₀ S : Store} {id : RolloutId} {now : Nat} {fence : Option Fence} {r : Rollout}
  {g g' : RolloutGroup} {pre front rest before after : List RolloutGroup} {adv adv' : Advance}
  {p : GroupState → Bool} {state : RolloutState}

/-! ## Counting groups -/

/-- The number of groups of which something is so afterwards that was not so before. -/
def turns (p : GroupState → Bool) (before after : List RolloutGroup) : Nat :=
  (before.zip after).countP fun x => !p x.1.state && p x.2.state

lemma turns_self (p : GroupState → Bool) (l : List RolloutGroup) : turns p l l = 0 := by
  induction l with
  | nil => rfl
  | cons g l ih => simpa [turns] using ih

lemma turns_append (h : after.length = before.length) (l l' : List RolloutGroup) :
    turns p (before ++ l) (after ++ l') = turns p before after + turns p l l' := by
  rw [turns, List.zip_append h.symm, List.countP_append]
  rfl

lemma turns_singleton (p : GroupState → Bool) (g g' : RolloutGroup) :
    turns p [g] [g'] = if !p g.state && p g'.state then 1 else 0 := by
  simp [turns, List.countP_cons]

/-- The group waits no longer. -/
def isStarted (state : GroupState) : Bool := state != .scheduled

/-- What the counters of a step say of groups before and behind it. -/
structure Account (before after : List RolloutGroup) (adv : Advance) : Prop where
  ids : after.map (·.id) = before.map (·.id)
  started : adv.groupsStarted = turns isStarted before after
  settled : adv.groupsSettled = turns GroupState.isDone before after

namespace Account

lemma of_self (hstarted : adv.groupsStarted = 0) (hsettled : adv.groupsSettled = 0)
    (l : List RolloutGroup) : Account l l adv :=
  ⟨rfl, hstarted.trans (turns_self _ l).symm, hsettled.trans (turns_self _ l).symm⟩

lemma length_eq (h : Account before after adv) : after.length = before.length := by
  simpa using congrArg List.length h.ids

/-- Groups behind the walk that it has not touched do not count. -/
lemma append_self (h : Account before after adv) (l : List RolloutGroup) :
    Account (before ++ l) (after ++ l) adv where
  ids := by rw [List.map_append, List.map_append, h.ids]
  started := by rw [turns_append h.length_eq, turns_self, Nat.add_zero, h.started]
  settled := by rw [turns_append h.length_eq, turns_self, Nat.add_zero, h.settled]

/-- The walk has come past a group. -/
lemma concat (h : Account before after adv) (hid : g'.id = g.id)
    (hstarted : adv'.groupsStarted = adv.groupsStarted + turns isStarted [g] [g'])
    (hsettled : adv'.groupsSettled = adv.groupsSettled + turns GroupState.isDone [g] [g']) :
    Account (before ++ [g]) (after ++ [g']) adv' where
  ids := by simp [h.ids, hid]
  started := by rw [turns_append h.length_eq, hstarted, h.started]
  settled := by rw [turns_append h.length_eq, hsettled, h.settled]

end Account

/-- A running group lacks actions of its members. -/
def LacksActions (groups : List RolloutGroup) : Prop :=
  ∃ g ∈ groups, g.state = .running ∧ g.counts.total < g.targetCount

/-! ## The walk -/

/-- What a step has told of itself so far is true of the groups that it has come past, and without
a word of progress nothing was written, unless a running group lacked actions. -/
structure Counted (s₀ s : Store) (pre front rest : List RolloutGroup) (adv : Advance) : Prop where
  account : Account pre front adv
  still : adv.groupsStarted = 0 → adv.groupsSettled = 0 → ¬ LacksActions (pre ++ rest) →
    SameProgress s₀ s

/-- What a walk over groups comes to, and what it tells of itself. -/
structure WalkTold (id : RolloutId) (s₀ s' : Store) (groups : List RolloutGroup)
    (state : RolloutState) (r : Rollout) (adv : Advance) : Prop where
  before : adv.before = state
  row : s'.rollout? id = some r
  taken : r.state ≠ .ready ∧ r.state ≠ .starting
  account : Account groups (s'.groupsOf id) adv
  still : r.state = .running → adv.groupsStarted = 0 → adv.groupsSettled = 0 →
    ¬ LacksActions groups → SameProgress s₀ s'

/-- A walk that ends leaves the groups alone to which it has not come. -/
lemma Counted.told (h : Counted s₀ s pre front rest adv) (hbefore : adv.before = state)
    (hrow : s.rollout? id = some r) (htaken : r.state ≠ .ready ∧ r.state ≠ .starting)
    (hgroups : s.groupsOf id = front ++ rest) :
    WalkTold id s₀ s (pre ++ rest) state r adv where
  before := hbefore
  row := hrow
  taken := htaken
  account := hgroups ▸ h.account.append_self rest
  still _ := h.still

/-- The walk goes past a group that has ended. -/
lemma Counted.pass (h : Counted s₀ s pre front (g :: rest) adv) :
    Counted s₀ s (pre ++ [g]) (front ++ [g]) rest adv where
  account := h.account.append_self [g]
  still hstarted hsettled hlacks := h.still hstarted hsettled (by simpa using hlacks)

/-- The counters behind a group that the walk has come to. -/
def startedBy (started : Bool) (adv : Advance) : Advance :=
  if started then { adv with groupsStarted := adv.groupsStarted + 1 } else adv

lemma before_startedBy (started : Bool) (adv : Advance) :
    (startedBy started adv).before = adv.before := by
  cases started <;> rfl

lemma groupsSettled_startedBy (started : Bool) (adv : Advance) :
    (startedBy started adv).groupsSettled = adv.groupsSettled := by
  cases started <;> rfl

/-- A group that ends keeps its members and its place. -/
lemma settle?_isDone (h : g.settle? g.verdict now = some g') :
    g'.state.isDone = true ∧ SameRoster g g' ∧ g'.rolloutId = g.rolloutId := by
  by_cases hverdict : g.verdict = .failed
  · rw [hverdict] at h
    obtain ⟨-, rfl⟩ := settle?_failed h
    exact ⟨rfl, ⟨rfl, rfl, rfl, rfl⟩, rfl⟩
  · obtain ⟨-, outcome, rfl⟩ := settle?_eq_some hverdict h
    exact ⟨rfl, ⟨rfl, rfl, rfl, rfl⟩, rfl⟩

namespace Entered

variable {started : Bool}

/-- A group that was started just now is counted. -/
lemma groupsStarted_eq (h : Entered g g' started s s') {g₁ : RolloutGroup}
    (hstate : isStarted g₁.state = true) (adv : Advance) :
    (startedBy started adv).groupsStarted =
      adv.groupsStarted + turns isStarted [g] [g₁] := by
  rw [turns_singleton, hstate]
  cases started with
  | true => simp [startedBy, isStarted, h.started_iff.1 rfl]
  | false =>
    have hnot : g.state ≠ .scheduled := fun hs => by simpa using h.started_iff.2 hs
    simp [startedBy, isStarted, hnot]

/-- The group had not ended before. -/
lemma isDone_eq_false (h : Entered g g' started s s') : g.state.isDone = false := by
  by_cases hstate : g.state = .scheduled
  · rw [hstate]
    rfl
  · rw [h.running hstate]
    rfl

end Entered

/-- The walk has come to a group that runs. -/
lemma Counted.entered {started : Bool} (h : Counted s₀ s pre front (g :: rest) adv)
    (he : Entered g g' started s s') (hrun : g'.state = .running) :
    Counted s₀ s' (pre ++ [g]) (front ++ [g']) rest (startedBy started adv) where
  account := by
    refine h.account.concat he.roster.id (he.groupsStarted_eq (by rw [hrun]; rfl) adv) ?_
    rw [groupsSettled_startedBy, turns_singleton, hrun]
    simp [GroupState.isDone]
  still hstarted hsettled hlacks := by
    -- nothing was started, so the group was running before, and then it has its actions
    have hnot : g.state ≠ .scheduled := fun hs => by
      rw [startedBy, if_pos (he.started_iff.2 hs)] at hstarted
      exact Nat.succ_ne_zero _ hstarted
    have hkept : adv.groupsStarted = 0 := by
      rw [startedBy, if_neg fun hs => hnot (he.started_iff.1 hs)] at hstarted
      exact hstarted
    have hlist : pre ++ [g] ++ rest = pre ++ g :: rest := by simp
    rw [groupsSettled_startedBy] at hsettled
    rw [hlist] at hlacks
    have hall : IsStaffed g := ⟨he.running hnot, Nat.not_lt.1 fun hless =>
      hlacks ⟨g, by simp, he.running hnot, hless⟩⟩
    obtain ⟨-, rfl⟩ := he.still hall
    exact h.still hkept hsettled hlacks

/-- The walk has come to a group that ends then. -/
lemma Counted.settled {started : Bool} {g₁ : RolloutGroup}
    (h : Counted s₀ s pre front (g :: rest) adv) (he : Entered g g' started s s')
    (hend : g'.settle? g'.verdict now = some g₁) (s₁ : Store) :
    Counted s₀ s₁ (pre ++ [g]) (front ++ [g₁]) rest
      { startedBy started adv with groupsSettled := (startedBy started adv).groupsSettled + 1 } where
  account := by
    obtain ⟨hdone, hroster, -⟩ := settle?_isDone hend
    have hstarted : isStarted g₁.state = true := by
      cases hs : g₁.state <;> simp_all [isStarted, GroupState.isDone]
    refine h.account.concat (hroster.id.trans he.roster.id) (he.groupsStarted_eq hstarted adv) ?_
    rw [groupsSettled_startedBy, turns_singleton, he.isDone_eq_false, hdone]
    rfl
  still _ hsettled := absurd hsettled (Nat.succ_ne_zero _)

/-- **A walk tells the truth**, and where it tells of nothing and no actions were lacking it has
written nothing. -/
theorem walk_told {previous : Option RolloutGroup} (hw : Walked r front rest (.ofStore s))
    (hprevious : previous.all RolloutGroup.releasesSuccessor = true)
    (hS : (outcomeOver now r rest s).progress = S) (hcount : Counted s₀ s pre front rest adv)
    (hbefore : adv.before = state) :
    Operation.Courses r.id now S fence (walk fence now previous rest r adv)
      (fun p s' => WalkTold r.id s₀ s' (pre ++ rest) state p.1 p.2) s := by
  have hrunning : r.state ≠ .ready ∧ r.state ≠ .starting := by simp [hw.running]
  -- the groups that were passed move to the front one by one, and the counters with them
  induction rest generalizing front pre previous adv s with
  | nil =>
    refine finish_course hw hS previous fun r' _ hid hstate => ?_
    refine ⟨hbefore, ?_, by simp [hstate], ?_, fun hrun => by simp [hstate] at hrun⟩
    · rw [rollout?_withRollout, if_pos hid.symm]
    · rw [groupsOf_withRollout]
      exact (hcount.told hbefore hw.row hrunning hw.groups).account
  | cons g rest ih =>
    have hlist : pre ++ g :: rest = pre ++ [g] ++ rest := by simp
    refine .bind (enter_course hw hprevious hS (fun hg => ?_) (fun hstuck => ?_)
      fun g' started s' he hw' hstaffed hS' => ?_)
    · have hpassed : (some g).all RolloutGroup.releasesSuccessor = true := hg
      rw [hlist]
      exact ih (hw.pass hg) hpassed (outcomeOver_of_releases hg rest s ▸ hS) hcount.pass hbefore
    · exact .pure (hcount.told hbefore hw.row hrunning hw.groups)
    have hbefore' : (startedBy started adv).before = state :=
      (before_startedBy started adv).trans hbefore
    rw [hlist]
    dsimp only
    cases hend : g'.settle? g'.verdict now with
    | none =>
      refine .pure ((hcount.entered he hstaffed.1).told hbefore' hw'.row hrunning ?_)
      rw [List.append_assoc]
      exact hw'.groups
    | some g₁ =>
      have hcount' := hcount.settled he hend
      dsimp only
      split
      · rename_i hverdict
        refine fail_course hw' hstaffed hS' hverdict hend _ fun r' _ hid hstate => ?_
        obtain ⟨-, hroster, hof⟩ := settle?_isDone hend
        have hgroups : (s'.withProgress r' [g₁]).groupsOf r.id = front ++ g₁ :: rest :=
          hw'.settled.sound.toKeyed.groupsOf_withGroup hw'.groups hroster hof
        refine (hcount' _).told hbefore' ?_ ?_ ?_
        · rw [withProgress, rollout?_withGroups, rollout?_withRollout, if_pos hid.symm]
        · rcases hstate with hstate | hstate <;> simp [hstate]
        · rw [hgroups, List.append_assoc, List.singleton_append]
      · rename_i hverdict
        refine .bind (settle_course hw' hstaffed hS' hverdict hend fun s hw' hg hS' => ?_)
        have hpassed : (some g₁).all RolloutGroup.releasesSuccessor = true := hg
        exact ih hw' hpassed hS' (hcount' s) hbefore'

/-! ## One step -/

lemma Advance.progressed_eq_false (h : adv.progressed = false) :
    adv.before = adv.after ∧ adv.groupsStarted = 0 ∧ adv.groupsSettled = 0 := by
  simpa [progressed, and_assoc] using h

/-- A rollout runs, and one of its running groups lacks actions of its members. -/
def Lags (s : Store) (id : RolloutId) : Prop :=
  ∃ r, s.rollout? id = some r ∧ r.state = .running ∧ LacksActions (s.groupsOf id)

/-- What a step tells of itself, and that it writes nothing where it tells of nothing. -/
structure Told (id : RolloutId) (s s' : Store) (adv : Advance) : Prop where
  before : (s.rollout? id).map (·.state) = some adv.before
  after : (s'.rollout? id).map (·.state) = some adv.after
  account : Account (s.groupsOf id) (s'.groupsOf id) adv
  still : adv.progressed = false → ¬ Lags s id → SameProgress s s'

/-- A step that does nothing says so. -/
lemma told_idle (hr : s.rollout? id = some r) : Told id s s (.idle r.state) where
  before := by rw [hr]; rfl
  after := by rw [hr]; rfl
  account := .of_self rfl rfl _
  still _ _ := .refl s

/-- Behind a rollout that was taken up nothing but its row may have been written, and that only if
it was ready or starting. -/
structure Opened (id : RolloutId) (s s' : Store) (r r' : Rollout) : Prop where
  before : s.rollout? id = some r
  after : s'.rollout? id = some r'
  groups : s'.groupsOf id = s.groupsOf id
  still : r.state ≠ .ready → r.state ≠ .starting → s' = s

namespace Opened

variable {s₁ : Store} {r₁ r' : Rollout}

/-- The step tells of the state to which the rollout was taken. -/
lemma told (h : Opened id s s₁ r r₁) (hready : r₁.state ≠ .ready) (hstarting : r₁.state ≠ .starting) :
    Told id s s₁ { Advance.idle r.state with after := r₁.state } where
  before := by rw [h.before]; rfl
  after := by rw [h.after]; rfl
  account := by
    rw [h.groups]
    exact .of_self rfl rfl _
  still hquiet _ := by
    have hstate : r.state = r₁.state := (Advance.progressed_eq_false hquiet).1
    rw [h.still (hstate ▸ hready) (hstate ▸ hstarting)]
    exact .refl s

/-- The step tells of what the walk told. -/
lemma walked (h : Opened id s s₁ r r₁)
    (hrun : r₁.state = .running)
    (hwalk : WalkTold id s₁ s' (s₁.groupsOf id) r.state r' adv) :
    Told id s s' { adv with after := r'.state } where
  before := by rw [h.before, hwalk.before]; rfl
  after := by rw [hwalk.row]; rfl
  account := by
    obtain ⟨hids, hstarted, hsettled⟩ := h.groups ▸ hwalk.account
    exact ⟨hids, hstarted, hsettled⟩
  still hquiet hlags := by
    obtain ⟨hstate, hstarted, hsettled⟩ := Advance.progressed_eq_false hquiet
    -- the rollout ran all the time, so it was not written before the walk either
    have hkept : r.state = r'.state := hwalk.before.symm.trans hstate
    obtain rfl := h.still (hkept ▸ hwalk.taken.1) (hkept ▸ hwalk.taken.2)
    obtain rfl := Option.some.inj (h.before.symm.trans h.after)
    exact hwalk.still (hkept ▸ hrun) hstarted hsettled fun hlacks =>
      hlags ⟨r, h.before, hrun, hlacks⟩

end Opened

/-- **A step tells the truth**, and where it tells of no progress and no actions were lacking it has
written nothing. -/
theorem advance_told (h : OnCourse id now S s) :
    Operation.Courses id now S fence (advance fence id now) (fun adv s' => Told id s s' adv) s := by
  obtain ⟨r, hr⟩ := h.row
  obtain rfl := (h.sound.rollout_key hr).1
  refine .bind (requireRollout_under hr ?_)
  dsimp only
  split
  · exact .pure (told_idle hr)
  rename_i hd
  refine .bind (begin?_course h hr (Bool.not_eq_true _ ▸ hd) (fun _ => .pure (told_idle hr))
    fun r₁ hsame₁ h₁ hr₁ hid₁ hd₁ hready₁ => ?_)
  rw [← hid₁]
  refine .bind (takeUp_course h₁ hr₁ hd₁ hready₁ fun r₂ hsame₂ h₂ hr₂ hid₂ hready₂ hstarting₂ => ?_)
  rw [← hid₂]
  have hopened : Opened r₂.id s ((s.withRollout r₁).withRollout r₂) r r₂ := by
    refine ⟨by rw [hid₂, hid₁, hr], hr₂, by rw [groupsOf_withRollout, groupsOf_withRollout],
      fun hready hstarting => ?_⟩
    obtain rfl := hsame₁ hready
    obtain rfl := hsame₂ hstarting
    rw [withRollout_eq_self hr, withRollout_eq_self hr]
  generalize (s.withRollout r₁).withRollout r₂ = s₂ at h₂ hr₂ hopened ⊢
  split
  · rename_i hrun
    refine .bind (.mapError (.read (fun groups hlist => .bind ?_) fun e he => ?_))
    · rw [h₂.sound.listGroups_eq hr₂] at hlist
      obtain rfl := Except.ok.inj hlist
      have hw : Walked r₂ [] (s₂.groupsOf r₂.id) (.ofStore s₂) :=
        ⟨.ofStore h₂.sound, hr₂, hrun, rfl, by simp⟩
      have hcount : Counted s₂ s₂ [] [] (s₂.groupsOf r₂.id) (.idle r.state) :=
        ⟨.of_self rfl rfl _, fun _ _ _ => .refl s₂⟩
      exact (walk_told hw rfl (hw.outcome_eq ▸ h₂.outcome_eq) hcount rfl).mono
        (fun p s' htold => .pure (hopened.walked hrun htold)) fun _ _ he => he
    · rw [h₂.sound.listGroups_eq hr₂] at he
      cases he
  · exact .pure (hopened.told hready₂ hstarting₂)

/-! ## What was changed -/

/-- The groups of a rollout of which something is so behind a step that was not so before it. -/
def turned (p : GroupState → Bool) (s s' : Store) (id : RolloutId) : List RolloutGroup :=
  (s.groupsOf id).filter fun g => !p g.state && (s'.group? g.id).any fun g' => p g'.state

/-- The state of a rollout, its groups and its actions stay as they are. -/
structure Stays (id : RolloutId) (s s' : Store) : Prop where
  state : (s'.rollout? id).map (·.state) = (s.rollout? id).map (·.state)
  groups : s'.groupsOf id = s.groupsOf id
  actions : s'.rolloutActionsOf id = s.rolloutActionsOf id

lemma Stays.of_sameProgress (h : SameProgress s s') (id : RolloutId) : Stays id s s' where
  state := by rw [rollout?, h.rollouts, ← rollout?]
  groups := by rw [groupsOf, h.groups, ← groupsOf]
  actions := by rw [rolloutActionsOf, h.actions, ← rolloutActionsOf]

lemma length_filter_turned (hids : after.map (·.id) = before.map (·.id))
    (hstored : ∀ g' ∈ after, s'.group? g'.id = some g') :
    (before.filter fun g => !p g.state && (s'.group? g.id).any fun g' => p g'.state).length =
      turns p before after := by
  induction before generalizing after with
  | nil => rfl
  | cons g before ih =>
    obtain ⟨g', after, rfl⟩ : ∃ g' l, after = g' :: l := by
      cases after with
      | nil => cases hids
      | cons g' l => exact ⟨g', l, rfl⟩
    obtain ⟨hid, hids⟩ := List.cons.inj hids
    obtain ⟨hg', hstored⟩ := List.forall_mem_cons.1 hstored
    have hlook : (s'.group? g.id).any (fun g' => p g'.state) = p g'.state := by
      rw [show g.id = g'.id from hid.symm, hg']
      rfl
    rw [List.filter_cons, hlook, turns, List.zip_cons_cons, List.countP_cons, ← turns,
      ← ih hids hstored]
    split <;> rfl

/-- The counters of a step count groups by their ids. -/
lemma Account.length_turned (h : Keyed s')
    (hids : (s'.groupsOf id).map (·.id) = (s.groupsOf id).map (·.id)) :
    (turned p s s' id).length = turns p (s.groupsOf id) (s'.groupsOf id) :=
  length_filter_turned hids fun _ hg => (h.mem_groupsOf.1 hg).1

/-- What a step tells of itself is true, but for actions that were lacking. -/
structure Faithful (id : RolloutId) (s s' : Store) (adv : Advance) : Prop where
  before : (s.rollout? id).map (·.state) = some adv.before
  after : (s'.rollout? id).map (·.state) = some adv.after
  started : adv.groupsStarted = (turned isStarted s s' id).length
  settled : adv.groupsSettled = (turned GroupState.isDone s s' id).length
  progressed : adv.progressed = true ∨ Lags s id ↔ ¬ Stays id s s'

/-- Where all stays as it is, the step tells of no progress. -/
lemma Told.progressed_eq_false (h : Told id s s' adv) (hstays : Stays id s s') :
    adv.progressed = false := by
  obtain ⟨hbefore, hafter, haccount, -⟩ := h
  rw [hstays.groups] at haccount
  have hstate : adv.before = adv.after :=
    Option.some.inj (hbefore.symm.trans (hstays.state.symm.trans hafter))
  simp [Advance.progressed, hstate, haccount.started, haccount.settled, turns_self]

/-- Behind a step that ends at rest no group lacks actions. -/
lemma AtRest.not_lags (hrest : AtRest id now s') (h : Sound s') : ¬ Lags s' id := by
  rintro ⟨r, hr, hrun, g, hg, hgrun, hless⟩
  obtain ⟨g', hwaits⟩ := hrest.waitsAt h hr hrun
  obtain rfl := hwaits.alone g hg hgrun
  exact hless.ne hwaits.total

lemma Stays.lags (h : Stays id s s') (hlags : Lags s id) : Lags s' id := by
  obtain ⟨r, hr, hrun, hlacks⟩ := hlags
  have hstate := h.state
  rw [hr] at hstate
  obtain ⟨r', hr', hsame⟩ := Option.map_eq_some_iff.1 hstate
  exact ⟨r', hr', hsame.trans hrun, h.groups ▸ hlacks⟩

lemma Told.faithful (h : Told id s s' adv) (hcourse : OnCourse id now S s')
    (hrest : AtRest id now s') : Faithful id s s' adv where
  before := h.before
  after := h.after
  started := h.account.started.trans (Account.length_turned hcourse.sound.toKeyed h.account.ids).symm
  settled := h.account.settled.trans (Account.length_turned hcourse.sound.toKeyed h.account.ids).symm
  progressed := by
    constructor
    · rintro (hprogressed | hlags) hstays
      · simp [h.progressed_eq_false hstays] at hprogressed
      · exact hrest.not_lags hcourse.sound (hstays.lags hlags)
    · intro hchanged
      by_contra hnone
      obtain ⟨hquiet, hlags⟩ := not_or.1 hnone
      exact hchanged (.of_sameProgress (h.still (Bool.not_eq_true _ ▸ hquiet) hlags) id)

/-- A step succeeds only for a rollout that exists. -/
lemma row_of_advance {env : Surroundings} {w : World}
    (hdone : ((ExceptT.run (advance fence id now)).run env w).1 = .ok adv) :
    ∃ r, w.store.rollout? id = some r := by
  by_contra hnone
  have hmissing : Operation.Under .silent (advance fence id now) _ _ w.store :=
    advance_missing (Option.eq_none_iff_forall_ne_some.2 fun r hr => hnone ⟨r, hr⟩)
  have hsilent : ∀ a s, Terms.silent.meanwhile s (env.deliver a s).2 := fun _ _ => trivial
  obtain ⟨-, hnot⟩ := Program.Under.run hsilent hmissing
  rw [hdone] at hnot
  exact hnot

end Progression

namespace Run

open Progression

/-- **A step reports faithfully.**  When it succeeds, the states that it tells of are those of the
rollout before and behind it, and its counters are the numbers of groups that it has started and
ended.  It tells of progress exactly if it changed something, except where a group lacked actions
of its members. -/
theorem advance_faithful (run : Run) (id : RolloutId) (now : Nat) {fence : Option Fence}
    {env : Surroundings} (henv : env.Gentle) {adv : Advance}
    (hdone : ((ExceptT.run (advance fence id now)).run env run.world).1 = .ok adv) :
    Faithful id run.store ((ExceptT.run (advance fence id now)).run env run.world).2.store adv := by
  have hstart : OnCourse id now (outcome id now run.store).progress run.world.store :=
    ⟨run.sound, row_of_advance hdone, rfl⟩
  have hcourse : Operation.Courses id now _ fence (advance fence id now) _ run.world.store :=
    advance_course hstart
  have htold : Operation.Courses id now _ fence (advance fence id now) _ run.world.store :=
    advance_told hstart
  obtain ⟨-, hend⟩ := Program.Under.run (fun a s => henv a s) hcourse
  obtain ⟨-, htrue⟩ := Program.Under.run (fun a s => henv a s) htold
  rw [hdone] at hend htrue
  exact Told.faithful htrue hend.1 hend.2

theorem advance_faithful_threeStages :
    let s := Run.store (threeStages.take 4)
    let s' := ((ExceptT.run (advance none "r" 5)).run quiet (Run.world (threeStages.take 4))).2.store
    (s.rollout? "r").map (·.state) = some .ready ∧ (s'.rollout? "r").map (·.state) = some .running ∧
      (turned isStarted s s' "r").length = 1 ∧ ¬ Stays "r" s s' := by
  have hgentle : quiet.Gentle := fun _ s => .refl s
  have hdone : ((ExceptT.run (advance none "r" 5)).run quiet
      (Run.world (threeStages.take 4))).1 = .ok ⟨.ready, .running, 1, 0⟩ := by cbv
  obtain ⟨hbefore, hafter, hstarted, -, hprogressed⟩ :=
    advance_faithful (threeStages.take 4) "r" 5 hgentle hdone
  exact ⟨hbefore, hafter, hstarted.symm, hprogressed.1 (.inl rfl)⟩

/-- A device has joined the running group, but the scheduler was cut off before it got an action. -/
def halfJoined : Run := leftBehind.take 5

/-- A step that issues what was lacking tells of no progress. -/
theorem not_progressed_iff :
    ¬ ∀ (run : Run) (id : RolloutId) (now : Nat) (env : Surroundings) (adv : Advance),
      env.Gentle → ((ExceptT.run (advance none id now)).run env run.world).1 = .ok adv →
        (adv.progressed = true ↔
          ¬ Stays id run.store ((ExceptT.run (advance none id now)).run env run.world).2.store) := by
  intro h
  have hgentle : quiet.Gentle := fun _ s => .refl s
  have hdone : ((ExceptT.run (advance none "r" 8)).run quiet halfJoined.world).1 =
      .ok ⟨.running, .running, 0, 0⟩ := by cbv
  have hbefore : (halfJoined.store.groupsOf "r").map (·.counts.created) = [1] := by cbv
  have hafter : ((((ExceptT.run (advance none "r" 8)).run quiet halfJoined.world).2.store).groupsOf
      "r").map (·.counts.created) = [2] := by cbv
  have hchanged := (h halfJoined "r" 8 quiet _ hgentle hdone).2 fun hstays => by
    rw [hstays.groups, hbefore] at hafter
    simp at hafter
  simp [Advance.progressed] at hchanged

end Run

end StagedRollout
