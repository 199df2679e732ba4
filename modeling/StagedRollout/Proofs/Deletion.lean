/-
# Deletion is final

From its deletion on a rollout only vanishes (`Vanishes`): it is being deleted and then it is
deleted, it gets no actions and no groups, and its groups are counted down and removed.  Where it
is deleted nothing of it is left (`Emptied`), and its name stays taken.
-/
import StagedRollout.Proofs.Invariants
import StagedRollout.Proofs.Orders

namespace StagedRollout

open Store

variable {allowed : Intent → Prop} {s s' s'' : Store} {l : List Action} {id : RolloutId}
  {w : World} {history : List Action}

/-! ## Vanishing -/

/-- From its deletion on, a rollout is being deleted until it is deleted. -/
inductive RolloutState.Recedes : RolloutState → RolloutState → Prop
  | deleting : Recedes .deleting .deleting
  | purged : Recedes .deleting .deleted
  | deleted : Recedes .deleted .deleted

lemma RolloutState.Recedes.trans {a b c : RolloutState} (h : Recedes a b) (h' : Recedes b c) :
    Recedes a c := by
  cases h with
  | deleting => exact h'
  | purged =>
    cases h'
    exact .purged
  | deleted => exact h'

lemma RolloutState.Recedes.refl {state : RolloutState}
    (h : state = .deleting ∨ state = .deleted) : Recedes state state := by
  rcases h with rfl | rfl
  · exact .deleting
  · exact .deleted

lemma RolloutState.Recedes.dest {a b : RolloutState} (h : Recedes a b) :
    b = .deleting ∨ b = .deleted := by
  cases h <;> simp

/-- From one store to another a rollout that is deleted only vanishes.  The rows that are or would
be its own are those whose keys begin with its name and a colon. -/
structure Vanishes (s s' : Store) (id : RolloutId) : Prop where
  rollout : ∃ r r', Table.read s.rollouts id = .ok (some r) ∧
    Table.read s'.rollouts id = .ok (some r') ∧ r.state.Recedes r'.state
  /-- No action is added. -/
  actions : ∀ key, startsWith (id ++ ":") key = true →
    Table.read s.actions key = .ok none → Table.read s'.actions key = .ok none
  /-- No group is added, and nothing of a group changes but its counters. -/
  groups : ∀ key, startsWith (id ++ ":") key = true → Table.read s'.groups key = .ok none ∨
    ∃ g counts, Table.read s.groups key = .ok (some g) ∧
      Table.read s'.groups key = .ok (some { g with counts := counts })

lemma Vanishes.trans (h : Vanishes s s' id) (h' : Vanishes s' s'' id) : Vanishes s s'' id where
  rollout := by
    obtain ⟨r, mid, hr, hmid, hfirst⟩ := h.rollout
    obtain ⟨mid', r', hmid', hr', hsecond⟩ := h'.rollout
    obtain rfl : mid = mid' := Option.some.inj (Except.ok.inj (hmid.symm.trans hmid'))
    exact ⟨r, r', hr, hr', hfirst.trans hsecond⟩
  actions key hkey hnone := h'.actions key hkey (h.actions key hkey hnone)
  groups key hkey := by
    rcases h'.groups key hkey with hgone | ⟨mid, counts, hmid, hlast⟩
    · exact .inl hgone
    · rcases h.groups key hkey with hgone | ⟨g, _, hg, hmid'⟩
      · cases hgone.symm.trans hmid
      · obtain rfl := Option.some.inj (Except.ok.inj (hmid'.symm.trans hmid))
        exact .inr ⟨g, counts, hg, hlast⟩

lemma Vanishes.refl {r : Rollout} (hs : Sound s) (hr : s.rollout? id = some r)
    (hd : r.deleted = true) : Vanishes s s id where
  rollout := ⟨r, r, Table.read_eq_some_iff.2 hr, Table.read_eq_some_iff.2 hr,
    .refl ((hs.agrees hr).deleted_iff.1 hd)⟩
  actions _ _ hnone := hnone
  groups key _ := by
    rw [hs.read_group]
    cases s.group? key with
    | none => exact .inl rfl
    | some g => exact .inr ⟨g, g.counts, rfl, rfl⟩

namespace Store

/-- A deleted rollout follows a purge only. -/
lemma Step.recedes (hs : Sound s) (hstep : Step allowed s s') {r r' : Rollout}
    (hr : s.rollout? id = some r) (hr' : s'.rollout? id = some r') (hd : r.deleted = true) :
    r.state.Recedes r'.state := by
  have hstate := (hs.agrees hr).deleted_iff.1 hd
  have hchange := hstep.rollout id
  rw [hr, hr'] at hchange
  cases hchange with
  | same | resolved => exact .refl hstate
  | ordered _ hobeys =>
    obtain ⟨hsource, -, hdest⟩ := hobeys.leads.of_deleted hstate
    rw [hsource, hdest]
    exact .purged

/-- **With every step a deleted rollout only vanishes.** -/
theorem Step.vanishes (hs : Sound s) (hstep : Step allowed s s') {r : Rollout}
    (hr : s.rollout? id = some r) (hd : r.deleted = true) : Vanishes s s' id := by
  have hs' := hs.step hstep
  obtain ⟨r', hr', -⟩ := hstep.keeps_deleted hs hr hd
  -- a rollout that runs or is paused is another one
  have hother : ∀ x, s.rollout? id = some x → x.state ≠ .running ∧ x.state ≠ .paused := by
    intro x hx
    obtain rfl := Option.some.inj (hr.symm.trans hx)
    rcases (hs.agrees hr).deleted_iff.1 hd with h | h <;> simp [h]
  constructor
  case rollout =>
    exact ⟨r, r', Table.read_eq_some_iff.2 hr, Table.read_eq_some_iff.2 hr',
      hstep.recedes hs hr hr' hd⟩
  case actions =>
    intro key hkey hnone
    have hrow : s.action? key = none := Table.intact?_of_read hnone
    have hchange := hstep.action hs key
    rw [hs'.read_action]
    rw [hrow] at hchange
    generalize hlast : s'.action? key = row at hchange ⊢
    cases hchange with
    | same => rfl
    | issued _ hx hrun =>
      obtain rfl := (hs'.startsWith_action hr' hlast).1 hkey
      exact absurd hrun (hother _ hx).1
  case groups =>
    intro key hkey
    have hchange := hstep.group hs key
    rw [hs.read_group, hs'.read_group]
    generalize hfirst : s.group? key = row at hchange ⊢
    generalize hlast : s'.group? key = row' at hchange ⊢
    cases hchange with
    | same =>
      cases row with
      | none => exact .inl rfl
      | some g => exact .inr ⟨g, g.counts, rfl, rfl⟩
    | created hnew =>
      obtain rfl := (hs'.startsWith_group hr' hlast).1 hkey
      simp [hnew] at hr
    | @counted g g' hc => exact .inr ⟨g, g'.counts, rfl, by rw [← hc.rest]⟩
    | @turned x g _ hx hturn =>
      obtain rfl := (hs.startsWith_group hr hfirst).1 hkey
      obtain ⟨hrun, hpaused⟩ := hother x hx
      exact (hturn.state_eq.elim hrun hpaused).elim
    | @uncounted _ g _ _ counts => exact .inr ⟨g, counts, rfl, rfl⟩
    | removed => exact .inl rfl

end Store

/-- On a trail a deleted rollout only vanishes. -/
lemma Trail.vanishes (h : Trail (Step allowed) s l s') (hs : Sound s) {r : Rollout}
    (hr : s.rollout? id = some r) (hd : r.deleted = true) : Vanishes s s' id := by
  have hend := h.keeps
    (J := fun t => (∃ r, t.rollout? id = some r ∧ r.deleted = true) ∧ Vanishes s t id) hs
    (fun t t' ht hstep hJ => ?_) ⟨⟨r, hr, hd⟩, .refl hs hr hd⟩
  · exact hend.2
  · obtain ⟨⟨r, hr, hd⟩, hvanishes⟩ := hJ
    exact ⟨hstep.keeps_deleted ht hr hd, hvanishes.trans (hstep.vanishes ht hr hd)⟩

/-! ## Nothing is left -/

/-- Where the rollout is deleted, nothing of it is left. -/
def Emptied (s : Store) (id : RolloutId) : Prop :=
  ∀ r, Table.read s.rollouts id = .ok (some r) → r.state = .deleted →
    r.groupIds = [] ∧ ∀ key, startsWith (id ++ ":") key = true →
      Table.read s.groups key = .ok none ∧ Table.read s.actions key = .ok none

namespace Store

/-- Deleted rollouts have no groups. -/
def PurgedEmpty (s : Store) : Prop :=
  ∀ id r, s.rollout? id = some r → r.state = .deleted → r.groupIds = [] ∧ s.groupsOf id = []

lemma purgedEmpty_empty : PurgedEmpty .empty := by
  intro id r hr
  simp [Store.empty, rollout?, Table.intact?] at hr

/-- A group of a rollout that was there was there too. -/
lemma Step.exists_group (hs : Sound s) (hstep : Step allowed s s') {key : GroupId} {r : Rollout}
    {g' : RolloutGroup} (hr : s.rollout? g'.rolloutId = some r) (hg' : s'.group? key = some g') :
    ∃ g, s.group? key = some g ∧ g.rolloutId = g'.rolloutId := by
  have hchange := hstep.group hs key
  rw [hg'] at hchange
  generalize s.group? key = row at hchange ⊢
  cases hchange with
  | same => exact ⟨g', rfl, rfl⟩
  | created hnew => simp [hnew] at hr
  | @counted g _ hc => exact ⟨g, rfl, by rw [hc.rest]⟩
  | @turned _ g _ _ hturn => exact ⟨g, rfl, hturn.rolloutId.symm⟩
  | @uncounted _ g => exact ⟨g, rfl, rfl⟩

/-- A rollout without groups gets none. -/
lemma Step.groupsOf_eq_nil (hs : Sound s) (hstep : Step allowed s s') {r : Rollout}
    (hr : s.rollout? id = some r) (hnone : s.groupsOf id = []) : s'.groupsOf id = [] := by
  refine List.eq_nil_iff_forall_not_mem.2 fun g' hg' => ?_
  obtain ⟨hstored, rfl⟩ := (hs.step hstep).mem_groupsOf.1 hg'
  obtain ⟨g, hg, hof⟩ := hstep.exists_group hs hr hstored
  have hmem : g ∈ s.groupsOf g'.rolloutId :=
    hs.mem_groupsOf.2 ⟨(hs.group_key hg).1 ▸ hg, hof⟩
  rw [hnone] at hmem
  exact List.not_mem_nil hmem

lemma PurgedEmpty.step (h : PurgedEmpty s) (hs : Sound s) (hstep : Step allowed s s') :
    PurgedEmpty s' := by
  intro id r' hr' hdeleted
  have hchange := hstep.rollout id
  rw [hr'] at hchange
  generalize hr : s.rollout? id = row at hchange
  cases hchange with
  | same =>
    obtain ⟨hids, hnone⟩ := h id r' hr hdeleted
    exact ⟨hids, hstep.groupsOf_eq_nil hs hr hnone⟩
  | @created _ _ approval _ _ _ hstate => cases approval <;> simp [hstate] at hdeleted
  | @ordered r _ c _ hobeys hpurged =>
    have hid := (hs.rollout_key hr).1
    obtain rfl : c = .purged := by
      have hleads := hobeys.leads
      rw [hdeleted] at hleads
      generalize r.state = source at hleads
      cases hleads
      rfl
    refine ⟨by rw [hobeys.groupIds, if_pos rfl], hstep.groupsOf_eq_nil hs hr ?_⟩
    rw [← hid]
    exact hpurged rfl
  | resolved hrun => simp [hrun] at hdeleted

lemma PurgedEmpty.emptied (h : PurgedEmpty s) (hs : Sound s) (id : RolloutId) : Emptied s id := by
  intro r hread hdeleted
  have hr : s.rollout? id = some r := Table.read_eq_some_iff.1 hread
  obtain ⟨hids, hnone⟩ := h id r hr hdeleted
  have hgroup : ∀ key g, s.group? key = some g → g.rolloutId ≠ id := by
    rintro key g hg rfl
    have hmem : g ∈ s.groupsOf g.rolloutId := hs.mem_groupsOf.2 ⟨(hs.group_key hg).1 ▸ hg, rfl⟩
    rw [hnone] at hmem
    exact List.not_mem_nil hmem
  refine ⟨hids, fun key hkey => ?_⟩
  rw [hs.read_group, hs.read_action]
  constructor
  · refine congrArg _ (Option.eq_none_iff_forall_ne_some.2 fun g hg => ?_)
    exact hgroup key g hg ((hs.startsWith_group hr hg).1 hkey)
  · refine congrArg _ (Option.eq_none_iff_forall_ne_some.2 fun a ha => ?_)
    obtain ⟨g, hg, hof, -⟩ := hs.action_group ha
    exact hgroup _ g hg (hof.trans ((hs.startsWith_action hr ha).1 hkey))

end Store

/-! ## The name stays taken -/

/-- Whoever only looks changes nothing, also if cut off: there is no write to be cut off at. -/
lemma Happening.store_of_looking {h : Happening}
    (hlooks : h.activity.program.Under Operator.looking (fun _ s' => s' = w.store) w.store) :
    (h.perform w).store = w.store := by
  have henv := Operator.looking_meanwhile h.surroundings
  unfold perform
  cases h.limit with
  | none => exact (Program.Under.run henv hlooks).2
  | some limit =>
    have hcut : (h.activity.program.cut limit).Under Operator.looking (fun _ s' => s' = w.store)
        w.store := by
      refine (hlooks.cut limit).mono fun x s' hx => ?_
      cases x with
      | some _ => exact hx
      | none =>
        obtain ⟨_, hwrites⟩ := hx
        exact hwrites.elim
    dsimp only
    rw [← Program.run_cut]
    exact (Program.Under.run henv hcut).2

/-- **Whoever makes a rollout with a name that is taken is refused**, and nothing is written. -/
theorem Happening.refuses {h : Happening} {m : Operator} {resolver : Resolver} {n : NewRollout}
    {r : Rollout} (hcreate : h.activity = .create m resolver n)
    (hr : w.store.rollout? n.name = some r) :
    (h.perform w).store = w.store ∧
      (h.limit = none → ∃ e, h.answer? w = some (.error e)) := by
  have htaken := Operator.create_taken m resolver hr
  have hop : h.activity.operation? = some (m.create resolver n) := by
    rw [hcreate]
    rfl
  constructor
  · refine store_of_looking ?_
    rw [Activity.program_eq hop]
    refine .bind (Program.Under.mono htaken fun answer s' hend => ?_)
    cases answer with
    | ok _ => exact hend.elim
    | error _ => exact hend
  · intro hlimit
    obtain ⟨answer, hanswer⟩ := exists_answer hlimit hop w
    obtain ⟨op, hop', hrun⟩ := answer?_eq_some hanswer
    obtain rfl : op = m.create resolver n := Option.some.inj (hop'.symm.trans hop)
    have hend := (Program.Under.run (Operator.looking_meanwhile h.surroundings) htaken).2
    rw [hrun] at hend
    cases answer with
    | ok _ => exact hend.elim
    | error e => exact ⟨e, hanswer⟩

/-! ## Runs -/

/-- A delete that is not refused leaves the rollout as it was answered. -/
lemma Happening.deletes {h : Happening} {m : Operator} {r : Rollout} (hs : Sound w.store)
    (hdelete : h.activity = .delete m id) (hanswer : h.answer? w = some (.ok r)) :
    (h.perform w).store.rollout? id = some r ∧ r.state = .deleting := by
  have hop : h.activity.operation? = some (m.delete id) := by rw [hdelete]; rfl
  obtain ⟨hr, before, now, -, happly⟩ :=
    of_answers hop (Operator.command_answers hs.toKeyed .delete) hanswer
  have hleads := (Rollout.apply?_eq_some happly).1
  refine ⟨hr, ?_⟩
  generalize before.state = source at hleads
  generalize r.state = dest at hleads ⊢
  cases hleads
  rfl

namespace Run

lemma emptied {run : Run} (id : RolloutId) : Emptied run.store id :=
  PurgedEmpty.emptied ((run.trail run.within_any).1.keeps sound_empty
    (fun _ _ hs hstep h => h.step hs hstep) purgedEmpty_empty) run.sound id

/-- **A deleted rollout vanishes**, however a run goes on. -/
theorem vanishes {run : Run} {r : Rollout} (hr : run.store.rollout? id = some r)
    (hd : r.deleted = true) (later : Run) : Vanishes run.store (run ++ later).store id :=
  (run.continues later).vanishes run.sound hr hd

/-- **Deletion is final.**  The flag of a rollout says that it is being deleted or deleted.  Behind
a delete that was not refused the rollout only vanishes, whatever happens later; where it is deleted
nothing of it is left; and its name stays taken. -/
theorem deletion_final (run : Run) :
    (∀ id r, Table.read run.store.rollouts id = .ok (some r) →
      (r.deleted = true ↔ r.state = .deleting ∨ r.state = .deleted)) ∧
    ∀ (h : Happening) (m : Operator) (id : RolloutId) (r : Rollout),
      h.activity = .delete m id → h.answer? run.world = some (.ok r) →
      Table.read (run ++ [h]).store.rollouts id = .ok (some r) ∧ r.state = .deleting ∧
      ∀ earlier later : Run,
        Vanishes (run ++ [h] ++ earlier).store (run ++ [h] ++ earlier ++ later).store id ∧
        Emptied (run ++ [h] ++ earlier).store id ∧
        ∀ (h' : Happening) (m' : Operator) (resolver : Resolver) (n : NewRollout),
          h'.activity = .create m' resolver n → n.name = id →
          (run ++ [h] ++ earlier ++ [h']).store = (run ++ [h] ++ earlier).store ∧
          (h'.limit = none →
            ∃ e, h'.answer? (run ++ [h] ++ earlier).world = some (.error e)) := by
  constructor
  · intro id r hr
    exact (run.sound.agrees (Table.read_eq_some_iff.1 hr)).deleted_iff
  · intro h m id r hdelete hanswer
    obtain ⟨hr, hstate⟩ := Happening.deletes run.sound hdelete hanswer
    rw [← store_concat] at hr
    have hd : r.deleted = true := ((run ++ [h]).sound.agrees hr).deleted_iff.2 (.inl hstate)
    refine ⟨Table.read_eq_some_iff.2 hr, hstate, fun earlier later => ?_⟩
    -- it is still there, and still deleted
    obtain ⟨_, r', _, hread, hrecedes⟩ := (vanishes hr hd earlier).rollout
    have hr' : (run ++ [h] ++ earlier).store.rollout? id = some r' := Table.read_eq_some_iff.1 hread
    have hd' : r'.deleted = true :=
      ((run ++ [h] ++ earlier).sound.agrees hr').deleted_iff.2 hrecedes.dest
    refine ⟨vanishes hr' hd' later, emptied id, ?_⟩
    rintro h' m' resolver n hcreate rfl
    rw [store_concat]
    exact Happening.refuses hcreate hr'

/-- The rollout while it is being deleted. -/
def vanishing : Rollout := { midway with state := .deleting, deleted := true, updatedAt := 14 }

lemma answer?_deletion : deletion.answer? threeStages.world = some (.ok vanishing) := by cbv

theorem deletion_final_threeStages :
    Table.read (threeStages ++ [deletion]).store.rollouts "r" = .ok (some vanishing) ∧
    Vanishes (threeStages ++ [deletion] ++ [cycle 8]).store
      (threeStages ++ [deletion] ++ [cycle 8] ++ [reclaiming]).store "r" := by
  obtain ⟨hread, -, hlater⟩ :=
    (deletion_final threeStages).2 deletion _ "r" vanishing rfl answer?_deletion
  exact ⟨hread, (hlater [cycle 8] [reclaiming]).1⟩

end Run

end StagedRollout
