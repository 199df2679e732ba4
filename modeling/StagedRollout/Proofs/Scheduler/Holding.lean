/-
# Working under a holding

All that a scheduler does once it has a rollout's lease: it writes behind the fence of its holding,
tells devices about their actions, and extends and gives up the lease.  Its writes keep the holding
as long as it has it, and they change nothing once it is gone for good.  An operation that fails
without the holding tells so, because then nothing but the fence can stop it (`Operation.Holding`).
-/
import StagedRollout.Proofs.Lease.Takeover
import StagedRollout.Proofs.Program.Terms
import StagedRollout.Scheduler.Cycle

namespace StagedRollout

open Store Transaction Progression

variable {α β ε ε' : Type} {f : Fence} {gone : Store → Prop} {may : LeaseEvent f.key → Prop}
  {s : Store}

/-! ## Working under a holding -/

/-- The terms of a holder: its writes keep the holding while it has it, and they change nothing
once it is gone. -/
def Fence.terms (f : Fence) (gone : Store → Prop) : Terms where
  writes s s' := (f.Current s → f.Current s') ∧ (gone s → s' = s)
  tells _ _ := True
  meanwhile s s' := (f.Current s → f.Current s' ∨ gone s') ∧ (gone s → gone s')

/-- Errors that tell, where the lease was lost, that it was. -/
class TellsLoss (ε : Type) where
  tells : ε → Bool

instance : TellsLoss StoreError := ⟨StoreError.isFenced⟩

instance : TellsLoss SchedulerError := ⟨SchedulerError.isLeaseLost⟩

instance : TellsLoss RolloutError := ⟨fun e => (SchedulerError.rollout e).isLeaseLost⟩

/-- An operation under a holding.  Where it fails without the holding, it tells so. -/
def Operation.Holding [TellsLoss ε] (f : Fence) (gone : Store → Prop) (op : Operation ε α)
    (Q : α → Store → Prop) (s : Store) : Prop :=
  Operation.Under (f.terms gone) op Q
    (fun e s' => f.Current s' ∨ gone s' ∧ TellsLoss.tells e = true) s

namespace Operation.Holding

variable [TellsLoss ε] [TellsLoss ε'] {op : Operation ε α} {Q : α → Store → Prop}

lemma mono {Q' : α → Store → Prop} (h : Operation.Holding f gone op Q s)
    (hQ : ∀ a s', Q a s' → Q' a s') : Operation.Holding f gone op Q' s :=
  Operation.Under.mono h hQ fun _ _ h => h

lemma bind {g : α → Operation ε β} {Q : β → Store → Prop}
    (h : Operation.Holding f gone op (fun a => Operation.Holding f gone (g a) Q) s) :
    Operation.Holding f gone (op >>= g) Q s := Operation.Under.bind h

lemma pure {a : α} (h : Q a s) : Operation.Holding f gone (pure a : Operation ε α) Q s := h

lemma mapError {map : ε → ε'} (hmap : ∀ e, TellsLoss.tells (map e) = TellsLoss.tells e)
    (h : Operation.Holding f gone op Q s) :
    Operation.Holding f gone (Operation.mapError map op) Q s :=
  Operation.Under.mapError (Operation.Under.mono h (fun _ _ h => h) fun e s' h => by
    rw [hmap]
    exact h)

lemma ofExcept {r : Except ε α} (hs : f.Current s) (hQ : ∀ a, Q a s) :
    Operation.Holding f gone (Operation.ofExcept r) Q s :=
  Operation.Under.ofExcept (fun a _ => hQ a) fun _ _ => .inl hs

/-- The holder looks at the store while it has the lease. -/
lemma read {view : Store → Except StoreError α} (hs : f.Current s) (hQ : ∀ a, Q a s) :
    Operation.Holding f gone (Operation.read view) Q s :=
  Operation.Under.read (fun a _ => hQ a) fun _ _ => .inl hs

/-- The holder writes behind its fence. -/
lemma commit (h : f.Ending may gone) {t : Transaction α} (ht : t.KeepsBeside)
    (hs : f.Current s ∨ gone s) (hQ : ∀ a s', f.Current s' → Q a s') :
    Operation.Holding f gone (Operation.commit (some f) t) Q s := by
  rcases hs with hs | hs
  · have hkept : ∀ a s', t s = .ok (a, s') → f.Current s' := by
      intro a s' hrun
      obtain ⟨l, hl, hn⟩ := hs
      refine ⟨l, ?_, hn⟩
      rw [lease?, Table.intact?, (ht s a s' hrun).leases]
      exact hl
    have hnot : ¬ gone s := fun hg => (h.lost hg).not_current hs
    exact Operation.Under.commit ⟨fun h => h, fun _ => rfl⟩ (fun _ _ _ => .inl hs) fun _ _ =>
      ⟨fun _ _ => .inl hs, fun a s' hrun =>
        ⟨⟨fun _ => hkept a s' hrun, fun hg => absurd hg hnot⟩, hQ a s' (hkept a s' hrun)⟩⟩
  · have hrefused : ∀ now, ∃ e, f.check now s = .error e ∧ e.isFenced = true :=
      (h.lost hs).check
    refine Operation.Under.commit ⟨fun h => h, fun _ => rfl⟩ (fun now e he => ?_)
      fun now hok => ?_
    · obtain ⟨e', he', htells⟩ := hrefused now
      obtain rfl : e' = e := Except.error.inj (he'.symm.trans he)
      exact .inr ⟨hs, htells⟩
    · obtain ⟨e', he', -⟩ := hrefused now
      cases he'.symm.trans hok

end Operation.Holding

/-! ## Resolving -/

/-- Resolving filters only looks at the store. -/
def Resolver.Reads (resolver : Resolver) : Prop := ∀ filter, Program.Reads (resolver filter).run

lemma Resolver.ofStore_reads [Wildcard.Limit] : Resolver.Reads Resolver.ofStore := by
  intro filter
  refine Operation.Reads.bind ?_ fun source => Operation.Reads.bind (.ofExcept _) fun expr =>
    Operation.Reads.bind (.mapError_read _ _) fun targets => trivial
  unfold expand
  split
  · refine Operation.Reads.bind (.mapError_read _ _) fun found => ?_
    cases found <;> trivial
  · trivial

/-! ## Advancing and resolving -/

section

variable (h : f.Ending may gone) {now : Nat} {r : Rollout} {g : RolloutGroup}
include h

omit h in
lemma notify_under {actions : List Action} (hs : f.Current s ∨ gone s) :
    Program.Under (f.terms gone) (notify actions) (fun _ s' => f.Current s' ∨ gone s') s := by
  induction actions generalizing s with
  | nil => exact hs
  | cons a rest ih =>
    exact ⟨trivial, fun _ s' hs' => ih (hs.elim hs'.1 fun hg => .inr (hs'.2 hg))⟩

lemma saveRollout_holding {Q : Unit → Store → Prop} (hs : f.Current s ∨ gone s)
    (hQ : ∀ s', f.Current s' → Q () s') :
    Operation.Holding f gone (saveRollout (some f) r) Q s :=
  .mapError (fun _ => rfl) (.commit h (.putRollout r) hs fun _ s' hs' => hQ s' hs')

lemma issue_holding {targets : List TargetId} {Q : Issued → Store → Prop}
    (hs : f.Current s ∨ gone s) (hQ : ∀ issued s', f.Current s' ∨ gone s' → Q issued s') :
    Operation.Holding f gone (issue (some f) r g targets now) Q s := by
  refine .bind (.mapError (fun _ => rfl)
    (.commit h (.issueActions _ _ _) hs fun issued s' hs' => .bind ?_))
  exact Operation.Under.lift
    ((notify_under (.inl hs')).mono fun _ s'' hs'' => .pure (hQ issued s'' hs''))

lemma enter_holding {previous : Option RolloutGroup} {Q : Entry → Store → Prop}
    (hs : f.Current s ∨ gone s) (hQ : ∀ entry s', f.Current s' ∨ gone s' → Q entry s') :
    Operation.Holding f gone (enter (some f) now previous r g) Q s := by
  unfold enter
  cases hstate : g.state with
  | finished | error => exact .pure (hQ _ s hs)
  | scheduled | ready =>
    dsimp only
    split
    · unfold startGroup
      rw [hstate]
      exact .bind (.bind (issue_holding h hs fun _ s' hs' => .pure (.pure (hQ _ s' hs'))))
    · exact .pure (hQ _ s hs)
  | running =>
    dsimp only
    split
    · exact .bind (issue_holding h hs fun _ s' hs' => .pure (hQ _ s' hs'))
    · exact .pure (hQ _ s hs)

/-- The walk over the groups of a running rollout, also of one that was lost meanwhile. -/
lemma walk_holding {groups : List RolloutGroup} {previous : Option RolloutGroup} {adv : Advance}
    (hrun : r.state = .running) (hs : f.Current s ∨ gone s) :
    Operation.Holding f gone (walk (some f) now previous groups r adv)
      (fun _ s' => f.Current s' ∨ gone s') s := by
  -- a running rollout accepts what the walk asks of it, so only a fence can stop the walk
  have happly : ∀ {c : Command} {Q : Rollout → Store → Prop} {s : Store},
      r.state.next c ≠ none → (∀ r', Q r' s) →
      Operation.Holding f gone (Operation.ofExcept (r.apply c now)) Q s := by
    intro c Q s hnext hQ
    obtain ⟨r', hr'⟩ := Option.ne_none_iff_exists'.1 (mt Rollout.apply?_eq_none_iff.1 hnext)
    rw [Rollout.apply, hr']
    exact hQ r'
  induction groups generalizing previous adv s with
  | nil =>
    exact .bind (happly (by simp [hrun, RolloutState.next]) fun r' =>
      .bind (saveRollout_holding h hs fun s' hs' => .pure (.inl hs')))
  | cons g rest ih =>
    refine .bind (enter_holding h hs fun entry s' hs' => ?_)
    cases entry with
    | passed => exact ih hs'
    | blocked => exact .pure hs'
    | running g started =>
      dsimp only
      cases g.settle? g.verdict now with
      | none => exact .pure hs'
      | some settled =>
        dsimp only
        split
        · refine .bind (happly (by cases g.errorAction <;> simp [hrun, RolloutState.next]) fun r' =>
            .bind (.mapError (fun _ => rfl) (.commit h (.putRolloutWithGroups _ _) hs' ?_)))
          exact fun _ s'' hs'' => .pure (.inl hs'')
        · exact .bind (.mapError (fun _ => rfl) (.commit h (.putGroup _) hs'
            fun _ s'' hs'' => ih (.inl hs'')))

omit h in
lemma requireRollout_holding {id : RolloutId} {Q : Rollout → Store → Prop} (hs : f.Current s)
    (hQ : ∀ r, Q r s) : Operation.Holding f gone (requireRollout id) Q s := by
  refine .bind (.mapError (fun _ => rfl) (.read hs fun found => ?_))
  cases found with
  | none => exact Operation.Under.throw (.inl hs)
  | some r => exact .pure (hQ r)

lemma begin?_holding {Q : Option Rollout → Store → Prop} (hs : f.Current s)
    (hQ : ∀ found s', f.Current s' → Q found s') :
    Operation.Holding f gone (begin? (some f) now r) Q s := by
  unfold begin?
  split
  · split
    · exact .bind (.ofExcept hs fun r' =>
        .bind (saveRollout_holding h (.inl hs) fun s' hs' => .pure (hQ _ s' hs')))
    · exact .pure (hQ _ s hs)
  · exact .pure (hQ _ s hs)

lemma takeUp_holding {Q : Rollout → Store → Prop} (hs : f.Current s)
    (hQ : ∀ r' s', f.Current s' → Q r' s') :
    Operation.Holding f gone (takeUp (some f) now r) Q s := by
  unfold takeUp
  split
  · exact .bind (.ofExcept hs fun r' =>
      .bind (saveRollout_holding h (.inl hs) fun s' hs' => .pure (hQ _ s' hs')))
  · exact .pure (hQ _ s hs)

/-- Driving a rollout forward under a holding that is there at the beginning. -/
lemma advance_holding {id : RolloutId} (hs : f.Current s) :
    Operation.Holding f gone (advance (some f) id now)
      (fun _ s' => f.Current s' ∨ gone s') s := by
  refine .bind (requireRollout_holding hs fun r => ?_)
  dsimp only
  split
  · exact .pure (.inl hs)
  refine .bind (begin?_holding h hs fun found s hs => ?_)
  cases found with
  | none => exact .pure (.inl hs)
  | some r =>
    refine .bind (takeUp_holding h hs fun r s hs => ?_)
    split
    · rename_i hrun
      refine .bind (.mapError (fun _ => rfl) (.read hs fun groups => .bind ?_))
      exact (walk_holding h hrun (.inl hs)).mono fun _ s' hs' => .pure hs'
    · exact .pure (.inl hs)

lemma extend_holding {targets : List TargetId} {Q : Rollout → Store → Prop} (hs : f.Current s)
    (hQ : ∀ r' s', f.Current s' ∨ gone s' → Q r' s') :
    Operation.Holding f gone (Live.extend (some f) g targets now) Q s := by
  refine .bind (.mapError (fun _ => rfl) (.commit h (.appendTargets _ _) (.inl hs)
    fun p s' hs' => ?_))
  dsimp only
  split
  · exact .bind (issue_holding h (.inl hs') fun _ s'' hs'' => .pure (hQ _ s'' hs''))
  · exact .pure (hQ _ s' (.inl hs'))

/-- Resolving a live rollout again under a holding that is there at the beginning. -/
lemma refresh_holding {live : Live} (hresolver : live.resolver.Reads) {id : RolloutId}
    (hs : f.Current s) :
    Operation.Holding f gone (live.refresh (some f) id now)
      (fun _ s' => f.Current s' ∨ gone s') s := by
  refine .bind (requireRollout_holding hs fun r => ?_)
  split
  · refine .bind (.mapError (fun _ => rfl) (.read hs fun groups => .bind ?_))
    refine (hresolver r.targetFilter).under fun result => ?_
    cases result with
    | error e => exact .inl hs
    | ok resolved =>
      dsimp only
      split
      · exact .bind (saveRollout_holding h (.inl hs) fun s' hs' => .pure (.inl hs'))
      · refine .bind (extend_holding h hs fun r' s' hs' => ?_)
        exact .bind (saveRollout_holding h hs' fun s'' hs'' => .pure (.inl hs''))
  · exact .pure (.inl hs)

end

/-! ## The lease itself -/

section

variable (h : f.Ending may gone) {rollout : RolloutId} {ttl expiresAt : Nat}
include h

/-- The holder speaks about its lease, without a fence. -/
lemma upkeep_under {t : Transaction α} {Q : α → Store → Prop} {E : SchedulerError → Store → Prop}
    (hs : f.Current s ∨ gone s)
    (hkept : f.Current s → ∀ a s', t s = .ok (a, s') → f.Current s')
    (hidle : f.Lost s → ∃ a, t s = .ok (a, s))
    (hQ : ∀ a s', t s = .ok (a, s') → (f.Current s → f.Current s') → (gone s → s' = s) → Q a s')
    (hE : ∀ e, f.Current s → E e s) :
    Operation.Under (f.terms gone) (RolloutLock.commit t) Q E s := by
  refine .mapError (.commit ⟨id, fun _ => rfl⟩ nofun fun _ _ => ?_)
  rcases hs with hs | hs
  · have hnot : ¬ gone s := fun hg => (h.lost hg).not_current hs
    refine ⟨fun e _ => hE _ hs, fun a s' hrun => ?_⟩
    have hs' := hkept hs a s' hrun
    have hstill : gone s → s' = s := fun hg => absurd hg hnot
    exact ⟨⟨fun _ => hs', hstill⟩, hQ a s' hrun (fun _ => hs') hstill⟩
  · obtain ⟨a, hrun⟩ := hidle (h.lost hs)
    refine ⟨fun e he => ?_, fun a' s' hrun' => ?_⟩
    · cases hrun.symm.trans he
    · obtain ⟨rfl, rfl⟩ := Prod.mk.inj (Except.ok.inj (hrun.symm.trans hrun'))
      exact ⟨⟨id, fun _ => rfl⟩, hQ a s hrun id fun _ => rfl⟩

omit h in
/-- What a holder does to its lease leaves it the same holding. -/
lemma current_of_upkept {s' : Store} {found : Option Lease} (hs : f.Current s)
    (hup : Upkept f.key f.owner f.token s found s') : f.Current s' := by
  cases hup with
  | kept hl howner htoken => exact ⟨_, lease?_withLease_self _ _ _, howner, htoken⟩
  | lost => exact hs

/-- A lease that could be extended is there, and it is the same holding. -/
lemma renew_holding {Q : Bool × Guard → Store → Prop} (hs : f.Current s ∨ gone s)
    (hheld : ∀ e s', f.Current s' → Q (true, ⟨rollout, f.key, f.owner, f.token, e⟩) s')
    (hlost : ∀ g s', f.Current s' ∨ gone s' → Q (false, g) s') :
    Operation.Holding f gone
      (RolloutLock.renewFor f.owner ttl ⟨rollout, f.key, f.owner, f.token, expiresAt⟩) Q s := by
  refine .bind (Operation.Under.now fun now => .bind (upkeep_under h hs
    (fun hs _ _ hrun => current_of_upkept hs (renewLease_eq_ok hrun))
    (fun hs => ⟨none, hs.renewLease now ttl⟩) (fun found s' hrun hcurrent hstill => ?_)
    fun _ hs => .inl hs))
  have hs' : f.Current s' ∨ gone s' := hs.imp hcurrent fun hg => (hstill hg).symm ▸ hg
  cases renewLease_eq_ok hrun with
  | kept _ howner htoken =>
    exact .pure (hheld _ _ ⟨_, lease?_withLease_self _ _ _, howner, htoken⟩)
  | lost => exact .pure (hlost _ _ hs')

/-- Giving the lease up leaves the new lease of somebody else alone. -/
lemma release_under {Q : Unit → Store → Prop} {E : SchedulerError → Store → Prop}
    (hs : f.Current s ∨ gone s)
    (hQ : ∀ s', (f.Current s → f.Current s') → (gone s → s' = s) → Q () s')
    (hE : ∀ e, f.Current s → E e s) :
    Operation.Under (f.terms gone)
      (RolloutLock.releaseFor f.owner ⟨rollout, f.key, f.owner, f.token, expiresAt⟩) Q E s := by
  refine .bind (upkeep_under h hs (fun hs _ _ hrun => ?_) (fun hs => ⟨false, hs.releaseLease⟩)
    (fun _ s' _ hcurrent hstill => .pure (hQ s' hcurrent hstill)) hE)
  obtain ⟨found, hup, -⟩ := releaseLease_eq_ok hrun
  exact current_of_upkept hs hup

end

/-! ## A step for one rollout -/

namespace Scheduler

variable {sch : Scheduler} {id rollout : RolloutId} {now ttl expiresAt : Nat}

/-- What a step does once it has the lease. -/
def workUnder (sch : Scheduler) (id : RolloutId) (now : Nat) (g : Guard) :
    Operation SchedulerError Bool := do
  let result ← ExceptT.lift (ExceptT.run (sch.stepUnder id now g))
  let _ ← ExceptT.lift (ExceptT.run (sch.lock.release g))
  Operation.ofExcept result

lemma step_eq (sch : Scheduler) (id : RolloutId) (now : Nat) :
    sch.step id now = sch.lock.acquire id >>= sch.workUnder id now := rfl

lemma stepUnder_holding (h : f.Ending may gone) (hlock : sch.lock = .ofStore f.owner ttl)
    (hlive : ∀ live, sch.live = some live → live.resolver.Reads) (hs : f.Current s) :
    Operation.Holding f gone
      (sch.stepUnder id now ⟨rollout, f.key, f.owner, f.token, expiresAt⟩)
      (fun _ s' => f.Current s' ∨ gone s') s := by
  refine .bind (.mapError (fun _ => rfl) ((advance_holding h hs).mono fun adv s hs => ?_))
  cases hfound : sch.live with
  | none => exact .pure hs
  | some live =>
    dsimp only
    rw [hlock]
    refine .bind (renew_holding h hs (fun e s hs => ?_) fun g s hs => .pure hs)
    exact .bind (.mapError (fun _ => rfl) ((refresh_holding h (hlive live hfound) hs).mono
      fun _ s' hs' => .pure hs'))

/-- **A step under a holding keeps to the holder's terms**, and where the holding is gone at the
end, the step has a value or tells so. -/
lemma workUnder_holding (h : f.Ending may gone) (hlock : sch.lock = .ofStore f.owner ttl)
    (hlive : ∀ live, sch.live = some live → live.resolver.Reads) (hs : f.Current s) :
    Operation.Holding f gone
      (sch.workUnder id now ⟨rollout, f.key, f.owner, f.token, expiresAt⟩)
      (fun _ s' => f.Current s' ∨ gone s') s := by
  have hrelease : ∀ (result : Except SchedulerError Bool) (s : Store),
      (f.Current s ∨ gone s ∧ ∀ e, result = .error e → TellsLoss.tells e = true) →
      Operation.Holding f gone (do
        let _ ← ExceptT.lift (ExceptT.run
          (sch.lock.release ⟨rollout, f.key, f.owner, f.token, expiresAt⟩))
        Operation.ofExcept result) (fun _ s' => f.Current s' ∨ gone s') s := by
    intro result s hs
    have hend : ∀ s', (f.Current s → f.Current s') → (gone s → s' = s) →
        Operation.Holding f gone (Operation.ofExcept result)
          (fun _ s' => f.Current s' ∨ gone s') s' := by
      intro s' hcurrent hstill
      have hs' : f.Current s' ∨ gone s' ∧ ∀ e, result = .error e → TellsLoss.tells e = true :=
        hs.imp hcurrent fun ⟨hg, htells⟩ => ⟨(hstill hg).symm ▸ hg, htells⟩
      exact Operation.Under.ofExcept (fun _ _ => hs'.imp_right And.left) fun e he =>
        hs'.imp_right fun hg => ⟨hg.1, hg.2 e he⟩
    rw [hlock]
    refine .bind (Operation.Under.attempt (release_under h (hs.imp_right And.left) ?_ ?_))
    · exact fun s' hcurrent hstill => hend s' hcurrent hstill
    · exact fun _ hs => hend s (fun h => h) fun _ => rfl
  refine .bind (Operation.Under.attempt (Operation.Under.mono
    (stepUnder_holding h hlock hlive hs) (fun a s' hs' => ?_) fun e s' hs' => ?_))
  · exact hrelease (.ok a) s' (hs'.imp_right fun hg => ⟨hg, nofun⟩)
  · exact hrelease (.error e) s' (hs'.imp_right fun hg => ⟨hg.1, fun _ he =>
      Except.error.inj he ▸ hg.2⟩)

end Scheduler

end StagedRollout
