/-
# Advancing is safe

Every write of one step of a scheduler is a move or an issue, and devices are told about exactly
the actions that it creates (`advance_orderly`).  The walk over the groups of a running rollout is
carried by `Walked`: the groups that it has come past let their successor start, and together with
those that are still in front of it they are the stored ones.
-/
import StagedRollout.Progression.Advance
import StagedRollout.Proofs.Program.Operation
import StagedRollout.Proofs.Store.Complete

namespace StagedRollout

open RolloutGroup Store Transaction

namespace Store

variable {s : Store} {id : RolloutId} {g g' : RolloutGroup} {front rest : List RolloutGroup}

/-- A group that is written takes its place among the groups of its rollout. -/
lemma Keyed.groupsOf_withGroup (h : Keyed s) (hgroups : s.groupsOf id = front ++ g :: rest)
    (hroster : SameRoster g g') (hof : g'.rolloutId = g.rolloutId) :
    (s.withGroup g').groupsOf id = front ++ g' :: rest := by
  have hmem : g ∈ s.groupsOf id := by simp [hgroups]
  have hstored : s.group? g'.id = some g := by
    rw [hroster.id]
    exact (h.mem_groupsOf.1 hmem).1
  have hreplaces : Replaces s [g'] :=
    .singleton hstored hof hroster.index fun t ht => hroster.targets ▸ ht
  have hsorted := h.groupsOf_index_lt id
  have hother : ∀ x ∈ s.groupsOf id, x ≠ g → replacedBy [g'] x = x := by
    intro x hx hne
    rcases h.replacedBy_eq hx hstored with ⟨rfl, -⟩ | ⟨-, heq⟩
    · exact absurd rfl hne
    · exact heq
  have hself : replacedBy [g'] g = g' := by rw [replacedBy_singleton, if_pos hroster.id]
  have hmap := h.groupsOf_withGroups hreplaces id
  rw [hgroups] at hsorted hother hmap
  rw [Rollout.map_eq_replace hsorted hother, hself] at hmap
  exact hmap

lemma groupsOf_issued (s : Store) (g : RolloutGroup) (actions : List Action) (now : Nat)
    (id : RolloutId) : (s.issued g actions now).groupsOf id =
      (s.withGroup (begunWith g (s.missing actions) now)).groupsOf id := by
  rw [groupsOf, groupsOf, issued, withGroup, withGroup, groups_withActions]

lemma rollout?_issued (s : Store) (g : RolloutGroup) (actions : List Action) (now : Nat)
    (id : RolloutId) : (s.issued g actions now).rollout? id = s.rollout? id := by
  rw [issued, rollout?_withGroup, rollout?_withActions]

end Store

namespace Progression

variable {allowed : Intent → Prop} {fence : Option Fence} {now : Nat} {c : Chronicle}

/-- What a scheduler does at a time when it drives a rollout forward. -/
inductive Drives (now : Nat) : Intent → Prop
  | start {r : Rollout} (hdue : r.startPolicy.isDue now = true) : Drives now (.order r .start)
  | started {r : Rollout} : Drives now (.order r .started)
  | groupFailed {r : Rollout} {action : ErrorAction} :
      Drives now (.order r (.groupFailed action))
  | finished {r : Rollout} : Drives now (.order r .allGroupsFinished)
  | issue : Drives now .issue

/-! ## Issuing -/

/-- Once all devices are told, devices were told about exactly the actions that were created. -/
lemma notify_orderly {actions : List Action} {Q : Unit → Chronicle → Prop}
    (hsound : Sound c.store) (htold : c.created = c.dispatched ++ actions)
    (hQ : ∀ c', Settled c' → SameProgress c.store c'.store → Q () c') :
    Program.Orderly allowed (notify actions) Q c := by
  -- what is still to be told is the end of what was created
  induction actions generalizing c with
  | nil =>
    rw [List.append_nil] at htold
    exact hQ c ⟨hsound, htold.symm⟩ (.refl _)
  | cons a rest ih =>
    intro answer s hs
    refine ih (c := c.told a s) (hsound.congr hs) ?_ fun c' hc' hs' => hQ c' hc' (hs.trans hs')
    rw [Chronicle.told, created_of_sameProgress hs, htold]
    simp

/-- A group of a running rollout that may have actions gets those that it lacks. -/
lemma issue_orderly {r : Rollout} {g : RolloutGroup} {targets : List TargetId}
    {Q : Issued → Chronicle → Prop} (hallowed : allowed .issue) (h : Settled c)
    (hr : c.store.rollout? r.id = some r)
    (hrun : r.state = .running) (hg : g ∈ c.store.groupsOf r.id)
    (hmay : MayIssue (c.store.groupsOf r.id) g) (hsub : targets.Sublist g.targets)
    (hQ : ∀ issued c', Settled c' →
      SameProgress (c.store.issued g (targets.map (newAction r g now)) now) c'.store →
      issued.group = begunWith g (c.store.missing (targets.map (newAction r g now))) now →
      Q issued c') :
    Operation.Orderly allowed (issue fence r g targets now) Q c := by
  have hsound := h.sound
  obtain ⟨hstored, -⟩ := hsound.mem_groupsOf.1 hg
  have hd := (hsound.agrees hr).deleted_eq_false_of_running hrun
  have hn := (hsound.nodup_targets hr hd hg).sublist hsub
  have hactions : ((targets.map (newAction r g now)).map (·.id)).Nodup :=
    nodup_newActions r now (hsound.isGroupId hstored) hn
  have hissue : Issue c.store (c.store.issued g (targets.map (newAction r g now)) now) :=
    .issue hr hrun hg hmay hsub
  refine .bind (.mapError ⟨h, fun _ => h, fun issued s hrun' => ?_⟩)
  rw [issueActions_run hsound.toKeyed hstored hactions] at hrun'
  obtain ⟨rfl, rfl⟩ := Prod.mk.inj (Except.ok.inj hrun')
  have hcreated := created_issued hsound hr hrun hg hsub (hsound.issue hissue)
  refine ⟨.inr ⟨hallowed, hissue⟩, Operation.Orderly.bind (Operation.Orderly.lift
    (notify_orderly (hsound.issue hissue) ?_ ?_))⟩
  · change c.created ++ created _ _ = c.dispatched ++ _
    rw [hcreated, h.told]
  · exact fun c' hc' hs => hQ _ c' hc' hs rfl

/-! ## The walk -/

/-- The walk over the groups of a running rollout has come past some of them. -/
structure Walked (r : Rollout) (front rest : List RolloutGroup) (c : Chronicle) : Prop where
  settled : Settled c
  row : c.store.rollout? r.id = some r
  running : r.state = .running
  groups : c.store.groupsOf r.id = front ++ rest
  passed : ∀ x ∈ front, x.releasesSuccessor = true

namespace Walked

variable {r : Rollout} {g g' : RolloutGroup} {front rest : List RolloutGroup}

lemma mem (h : Walked r front (g :: rest) c) : g ∈ c.store.groupsOf r.id := by simp [h.groups]

lemma staged (h : Walked r front (g :: rest) c) : Staged (front ++ g :: rest) := by
  have hagrees := h.settled.sound.agrees h.row
  exact h.groups ▸ hagrees.staged (hagrees.deleted_eq_false_of_running h.running)

/-- The walk goes past a group that lets its successor start. -/
lemma pass (h : Walked r front (g :: rest) c) (hg : g.releasesSuccessor = true) :
    Walked r (front ++ [g]) rest c where
  settled := h.settled
  row := h.row
  running := h.running
  groups := by rw [h.groups, List.append_assoc, List.singleton_append]
  passed x hx := by
    rcases List.mem_append.1 hx with hx | hx
    · exact h.passed x hx
    · exact List.mem_singleton.1 hx ▸ hg

/-- The group in front of the walk is written. -/
lemma replace {c' : Chronicle} (h : Walked r front (g :: rest) c) (hsettled : Settled c')
    (hrow : c'.store.rollout? r.id = c.store.rollout? r.id)
    (hgroups : c'.store.groupsOf r.id = (c.store.withGroup g').groupsOf r.id)
    (hroster : SameRoster g g') (hof : g'.rolloutId = g.rolloutId) :
    Walked r front (g' :: rest) c' where
  settled := hsettled
  row := hrow.trans h.row
  running := h.running
  groups := hgroups.trans (h.settled.sound.toKeyed.groupsOf_withGroup h.groups hroster hof)
  passed := h.passed

/-- The group in front of the walk runs, or it waits and it is its turn. -/
lemma mayIssue (h : Walked r front (g :: rest) c)
    (hg : g.state = .running ∨ g.state = .scheduled) : MayIssue (c.store.groupsOf r.id) g := by
  refine hg.imp_right fun hwaits => ⟨hwaits, fun x hx hlt => ?_⟩
  have hsorted := h.settled.sound.groupsOf_index_lt r.id
  rw [h.groups] at hx hsorted
  obtain ⟨-, htail, -⟩ := List.pairwise_append.1 hsorted
  -- the groups behind have greater indices, so those before it were all passed
  rcases List.mem_append.1 hx with hx | hx
  · exact h.passed x hx
  · rcases List.mem_cons.1 hx with rfl | hx
    · omega
    · have hgt := (List.pairwise_cons.1 htail).1 x hx
      omega

/-- The walk goes on with the group in front of it once that has all its actions. -/
lemma issue {Q : Issued → Chronicle → Prop} (hmay : ∀ d, Drives now d → allowed d)
    (h : Walked r front (g :: rest) c)
    (hg : g.state = .running ∨ g.state = .scheduled)
    (hQ : ∀ issued c', Walked r front (issued.group :: rest) c' →
      IsStaffed issued.group → Q issued c') :
    Operation.Orderly allowed (issue fence r g g.targets now) Q c := by
  have hturn := h.mayIssue hg
  refine issue_orderly (hmay _ .issue) h.settled h.row h.running h.mem hturn (.refl _)
    fun issued c' hc' hs hgroup => hQ issued c' ?_ ?_
  · refine h.replace hc' ?_ ?_ (hgroup ▸ sameRoster_begunWith g _ now)
      (hgroup ▸ rolloutId_begunWith g _ now)
    · rw [rollout?, hs.rollouts, ← rollout?, rollout?_issued]
    · rw [groupsOf, hs.groups, ← groupsOf, groupsOf_issued, hgroup]
  · exact hgroup ▸ h.settled.sound.isStaffed_issued h.row h.running h.mem hturn

end Walked

/-- Writes a rollout. -/
lemma saveRollout_orderly {r : Rollout} {Q : Unit → Chronicle → Prop} (h : Settled c)
    (hm : Move allowed c.store (c.store.withRollout r))
    (hQ : ∀ c', Settled c' → c'.store = c.store.withRollout r → Q () c') :
    Operation.Orderly allowed (saveRollout fence r) Q c :=
  .mapError (.commit_run h (putRollout_run r c.store) hm hQ)

/-- However the walk comes to a group, a running one has all its actions. -/
lemma enter_orderly {r : Rollout} {g : RolloutGroup} {front rest : List RolloutGroup}
    {previous : Option RolloutGroup} {Q : Entry → Chronicle → Prop}
    (hmay : ∀ d, Drives now d → allowed d) (h : Walked r front (g :: rest) c)
    (hpassed : g.releasesSuccessor = true → Q .passed c) (hblocked : Q .blocked c)
    (hrunning : ∀ g' started c', Walked r front (g' :: rest) c' → IsStaffed g' →
      Q (.running g' started) c') :
    Operation.Orderly allowed (enter fence now previous r g) Q c := by
  unfold enter
  cases hstate : g.state with
  | finished => exact .pure (hpassed (by simp [releasesSuccessor, hstate]))
  | error =>
    cases hack : g.errorAcknowledged with
    | true => exact .pure (hpassed (by simp [releasesSuccessor, hstate, hack]))
    | false => exact .pure hblocked
  | ready => exact absurd hstate (h.staged.state_ne_ready (by simp))
  | scheduled =>
    dsimp only
    split
    · unfold startGroup
      rw [hstate]
      refine .bind (.bind (h.issue hmay (.inr hstate) fun issued c' hw hstaffed => ?_))
      exact .pure (.pure (hrunning issued.group true c' hw hstaffed))
    · exact .pure hblocked
  | running =>
    dsimp only
    split
    · refine .bind (h.issue hmay (.inl hstate) fun issued c' hw hstaffed => ?_)
      exact .pure (hrunning issued.group false c' hw hstaffed)
    · rename_i hnot
      exact .pure (hrunning g false c h ⟨hstate, Nat.not_lt.1 hnot⟩)

/-- The group in front of the walk ends well, and the walk goes on behind it. -/
lemma settle_orderly {r : Rollout} {g g' : RolloutGroup} {front rest : List RolloutGroup}
    {Q : Unit → Chronicle → Prop} (h : Walked r front (g :: rest) c) (hstaffed : IsStaffed g)
    (hverdict : g.verdict ≠ .failed) (hend : g.settle? g.verdict now = some g')
    (hQ : ∀ c', Walked r (front ++ [g']) rest c' → Q () c') :
    Operation.Orderly allowed
      (Operation.mapError RolloutError.persistence (Operation.commit fence (putGroup g'))) Q c := by
  have hm : Move allowed c.store (c.store.withGroup g') :=
    .settle h.row h.running h.mem hstaffed hverdict hend
  obtain ⟨-, outcome, rfl⟩ := settle?_eq_some hverdict hend
  have hstored := (h.settled.sound.mem_groupsOf.1 h.mem).1
  have hrun := putGroup_run h.settled.sound.toKeyed (g := { g with
    state := .finished, outcome := some outcome, finishedAt := some now }) hstored rfl rfl rfl
  refine .mapError (.commit_run h.settled hrun hm fun c' hc' hs => hQ c' (.pass ?_ rfl))
  exact h.replace hc' (by rw [hs, rollout?_withGroup]) (by rw [hs]) ⟨rfl, rfl, rfl, rfl⟩ rfl

/-- The group in front of the walk fails, and its rollout with it. -/
lemma fail_orderly {r r' : Rollout} {g g' : RolloutGroup} {front rest : List RolloutGroup}
    {reason : String} {Q : Unit → Chronicle → Prop} (hmay : ∀ d, Drives now d → allowed d)
    (h : Walked r front (g :: rest) c) (hstaffed : IsStaffed g)
    (hverdict : g.verdict = .failed) (hend : g.settle? g.verdict now = some g')
    (happly : r.apply? (.groupFailed g.errorAction) now = some r')
    (hQ : ∀ c', Settled c' → Q () c') :
    Operation.Orderly allowed (Operation.mapError RolloutError.persistence
      (Operation.commit fence (putRolloutWithGroups { r' with lastError := some reason } [g'])))
      Q c := by
  have hm : Move allowed c.store
      (c.store.withProgress { r' with lastError := some reason } [g']) :=
    .fail (hmay _ .groupFailed) h.row h.mem hstaffed hverdict hend happly
  rw [hverdict] at hend
  obtain ⟨-, rfl⟩ := settle?_failed hend
  have hsound := h.settled.sound
  obtain ⟨hstored, -⟩ := hsound.mem_groupsOf.1 h.mem
  have hname : NewRollout.isName r'.id = true := by
    rw [Rollout.id_of_apply happly]
    exact (hsound.rollout_key h.row).2
  have hreplaces : Replaces c.store [{ g with
      state := .error, outcome := none, finishedAt := some now }] :=
    .singleton hstored rfl rfl fun _ ht => ht
  refine .mapError (.commit_run h.settled (putRolloutWithGroups_run hsound.toKeyed hname hreplaces
    fun x hx old hold => ?_) hm fun c' hc' _ => hQ c' hc')
  obtain rfl := List.mem_singleton.1 hx
  obtain rfl := Option.some.inj (hstored.symm.trans hold)
  exact ⟨rfl, rfl, rfl⟩

/-- **The walk over the groups of a running rollout is safe.** -/
theorem walk_orderly {r : Rollout} {front rest : List RolloutGroup}
    (hmay : ∀ d, Drives now d → allowed d) (h : Walked r front rest c)
    (previous : Option RolloutGroup) (adv : Advance) :
    Operation.Orderly allowed (walk fence now previous rest r adv) (fun _ => Settled) c := by
  -- the groups that were passed move to the front one by one
  induction rest generalizing front previous adv c with
  | nil =>
    refine .bind (.ofExcept h.settled fun r' happly => .bind (saveRollout_orderly h.settled
      (.finish (hmay _ .finished) h.row ?_ (Rollout.apply_eq_ok happly)) fun c' hc' _ => .pure hc'))
    -- behind the last group all were passed
    rw [h.groups, List.append_nil]
    exact h.passed
  | cons g rest ih =>
    refine .bind (enter_orderly hmay h (fun hg => ih (h.pass hg) _ _) (.pure h.settled)
      fun g started c' hw hstaffed => ?_)
    dsimp only
    cases hend : g.settle? g.verdict now with
    | none => exact .pure hw.settled
    | some settled =>
      dsimp only
      split
      · rename_i hverdict
        refine .bind (.ofExcept hw.settled fun r' happly => .bind ?_)
        have hrow := Rollout.apply_eq_ok happly
        exact fail_orderly hmay hw hstaffed hverdict hend hrow fun c' hc' => .pure hc'
      · rename_i hverdict
        exact .bind (settle_orderly hw hstaffed hverdict hend fun c' hw' => ih hw' _ _)

/-! ## One step -/

/-- A rollout that is read has to exist. -/
lemma requireRollout_orderly {id : RolloutId} {Q : Rollout → Chronicle → Prop} (h : Settled c)
    (hQ : ∀ r, c.store.rollout? id = some r → Q r c) :
    Operation.Orderly allowed (requireRollout id) Q c := by
  refine .bind (.mapError (.read h fun found hread => ?_))
  rw [Table.read_of_undamaged h.sound.rollouts_intact] at hread
  cases found with
  | none => exact .throw h
  | some r => exact .pure (hQ r (Except.ok.inj hread))

/-- A rollout follows a plain command, and its row is written. -/
lemma order_orderly {r r' : Rollout} {command : Command} {Q : Unit → Chronicle → Prop}
    (hmay : allowed (.order r command)) (h : Settled c) (hr : c.store.rollout? r.id = some r)
    (hc : command.isPlain = true) (happly : r.apply? command now = some r')
    (hQ : ∀ c', Settled c' → c'.store.rollout? r'.id = some r' → Q () c') :
    Operation.Orderly allowed (saveRollout fence r') Q c :=
  saveRollout_orderly h (.order hmay hr hc happly) fun c' hc' hs => hQ c' hc' (by simp [hs])

lemma begin?_orderly {r : Rollout} {Q : Option Rollout → Chronicle → Prop}
    (hmay : ∀ d, Drives now d → allowed d) (h : Settled c)
    (hr : c.store.rollout? r.id = some r) (hnone : Q none c)
    (hsome : ∀ r' c', Settled c' → c'.store.rollout? r'.id = some r' → Q (some r') c') :
    Operation.Orderly allowed (begin? fence now r) Q c := by
  unfold begin?
  split
  · split
    · rename_i hdue
      refine .bind (.ofExcept h fun r' happly => .bind ?_)
      have hrow := Rollout.apply_eq_ok happly
      exact order_orderly (hmay _ (.start hdue)) h hr rfl hrow fun c' hc' hr' =>
        .pure (hsome r' c' hc' hr')
    · exact .pure hnone
  · exact .pure (hsome r c h hr)

lemma takeUp_orderly {r : Rollout} {Q : Rollout → Chronicle → Prop}
    (hmay : ∀ d, Drives now d → allowed d) (h : Settled c) (hr : c.store.rollout? r.id = some r)
    (hQ : ∀ r' c', Settled c' → c'.store.rollout? r'.id = some r' → Q r' c') :
    Operation.Orderly allowed (takeUp fence now r) Q c := by
  unfold takeUp
  split
  · refine .bind (.ofExcept h fun r' happly => .bind ?_)
    exact order_orderly (hmay _ .started) h hr rfl (Rollout.apply_eq_ok happly) fun c' hc' hr' =>
      .pure (hQ r' c' hc' hr')
  · exact .pure (hQ r c h hr)

/-- **Driving a rollout as far as its state allows is safe.** -/
theorem advance_orderly (hmay : ∀ d, Drives now d → allowed d) (h : Settled c)
    (id : RolloutId) :
    Operation.Orderly allowed (advance fence id now) (fun _ => Settled) c := by
  refine .bind (requireRollout_orderly h fun r hr => ?_)
  have hrow : c.store.rollout? r.id = some r := by
    rw [(h.sound.rollout_key hr).1]
    exact hr
  dsimp only
  split
  · exact .pure h
  refine .bind (begin?_orderly hmay h hrow (.pure h) fun r c hc hr =>
    .bind (takeUp_orderly hmay hc hr fun r c hc hr => ?_))
  split
  · rename_i hrun
    refine .bind (.mapError (.read hc fun groups hlist => .bind ?_))
    rw [hc.sound.listGroups_eq hr] at hlist
    have hw : Walked r [] groups c := ⟨hc, hr, hrun, Except.ok.inj hlist, by simp⟩
    exact (walk_orderly hmay hw none _).mono fun _ c' hc' => .pure hc'
  · exact .pure hc

end Progression

end StagedRollout
