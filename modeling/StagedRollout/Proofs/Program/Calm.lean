/-
# Calm programs

A calm program leaves rollouts, groups and actions alone and sends no messages.  Resolvers of
filters are calm, and so are locks, which change leases only; what is done to devices and saved
filters is calm too.  A settled chronicle stays settled through a calm program (`Calm.orderly`).
-/
import StagedRollout.Operator.Resolver
import StagedRollout.Proofs.Program.Operation
import StagedRollout.Scheduler.Lock

namespace StagedRollout

open Store

variable {α β ε ε' : Type} {allowed : Intent → Prop}

/-! ## Transactions -/

namespace Transaction

/-- The transaction leaves rollouts, groups and actions alone. -/
def Calm (t : Transaction α) : Prop := ∀ s a s', t s = .ok (a, s') → SameProgress s s'

namespace Calm

lemma pure (a : α) : Calm (pure a : Transaction α) := by
  intro s b s' h
  obtain ⟨-, rfl⟩ := Prod.mk.inj (Except.ok.inj h)
  exact .refl s

lemma bind {t : Transaction α} {f : α → Transaction β} (h : Calm t) (hf : ∀ a, Calm (f a)) :
    Calm (t >>= f) := by
  intro s b s'' hrun
  cases ht : t s with
  | error e =>
    rw [bind_error ht] at hrun
    cases hrun
  | ok p =>
    rw [bind_run ht] at hrun
    exact (h s p.1 p.2 ht).trans (hf p.1 p.2 b s'' hrun)

lemma read (table : Store → Table α) (key : String) : Calm (read table key) := by
  intro s a s' h
  rw [Transaction.read, bind_run (get_run s)] at h
  cases hr : Table.read (table s) key with
  | error e =>
    rw [hr] at h
    cases h
  | ok v =>
    rw [hr] at h
    obtain ⟨-, rfl⟩ := Prod.mk.inj (Except.ok.inj h)
    exact .refl s

lemma writeLease (key : String) (l : Lease) : Calm (writeLease key l) := by
  intro s a s' h
  obtain ⟨-, rfl⟩ := Prod.mk.inj (Except.ok.inj h)
  exact ⟨rfl, rfl, rfl⟩

lemma acquireLease (key owner : String) (now ttl : Nat) :
    Calm (acquireLease key owner now ttl) := by
  have hgrant : ∀ token, Calm (do
      Transaction.writeLease key ⟨key, owner, token, now + ttl⟩
      return LeaseGrant.granted ⟨key, owner, token, now + ttl⟩) := fun token =>
    (writeLease key _).bind fun _ => pure _
  refine (read Store.leases key).bind fun found => ?_
  cases found with
  | none => exact hgrant 1
  | some l =>
    dsimp only
    split
    · exact hgrant _
    · split
      · exact hgrant _
      · exact pure _

lemma renewLease (key owner : String) (token now ttl : Nat) :
    Calm (renewLease key owner token now ttl) := by
  refine (read Store.leases key).bind fun found => ?_
  cases found with
  | none => exact pure _
  | some l =>
    dsimp only
    split
    · exact (writeLease key _).bind fun _ => pure _
    · exact pure _

lemma releaseLease (key owner : String) (token : Nat) :
    Calm (releaseLease key owner token) := by
  refine (read Store.leases key).bind fun found => ?_
  cases found with
  | none => exact pure _
  | some l =>
    dsimp only
    split
    · exact (writeLease key _).bind fun _ => pure _
    · exact pure _

lemma putTarget (t : Target) : Calm (putTarget t) := by
  intro s a s' h
  obtain ⟨-, rfl⟩ := Prod.mk.inj (Except.ok.inj h)
  exact ⟨rfl, rfl, rfl⟩

lemma deleteTarget (id : TargetId) : Calm (deleteTarget id) := by
  intro s a s' h
  obtain ⟨-, rfl⟩ := Prod.mk.inj (Except.ok.inj h)
  exact ⟨rfl, rfl, rfl⟩

lemma putFilter (f : SavedFilter) : Calm (putFilter f) := by
  intro s a s' h
  obtain ⟨-, rfl⟩ := Prod.mk.inj (Except.ok.inj h)
  exact ⟨rfl, rfl, rfl⟩

lemma deleteFilter (id : String) : Calm (deleteFilter id) := by
  intro s a s' h
  obtain ⟨-, rfl⟩ := Prod.mk.inj (Except.ok.inj h)
  exact ⟨rfl, rfl, rfl⟩

end Calm

end Transaction

/-! ## Programs -/

/-- The effect leaves rollouts, groups and actions alone and is no message. -/
def Effect.Calm : Effect β → Prop
  | write _ t => t.Calm
  | dispatch _ => False
  | _ => True

/-- All effects of the program are calm. -/
def Program.Calm : Program α → Prop
  | .done _ => True
  | .step e next => e.Calm ∧ ∀ b, (next b).Calm

lemma Program.Calm.bind {p : Program α} {f : α → Program β} (h : p.Calm)
    (hf : ∀ a, (f a).Calm) : (p >>= f).Calm := by
  induction p with
  | done a => exact hf a
  | step e next ih => exact ⟨h.1, fun b => ih b (h.2 b)⟩

/-- **A settled chronicle stays settled through a calm program.** -/
theorem Program.Calm.orderly {p : Program α} {Q : α → Chronicle → Prop} {c : Chronicle}
    (h : p.Calm) (hsettled : Settled c)
    (hQ : ∀ a c', Settled c' → SameProgress c.store c'.store → Q a c') :
    Program.Orderly allowed p Q c := by
  induction p generalizing c with
  | done a => exact hQ a c hsettled (.refl _)
  | step e next ih =>
    cases e with
    | clock => exact fun n => ih n (h.2 n) hsettled hQ
    | look view => exact ih _ (h.2 _) hsettled hQ
    | write fence t =>
      refine ⟨hsettled, fun e => ih _ (h.2 _) hsettled hQ, fun a s hrun => ?_⟩
      have hs := h.1 _ _ _ hrun
      refine ⟨step_of_sameProgress hs, ih _ (h.2 _) (hsettled.of_sameProgress hs) ?_⟩
      exact fun a c' hc' hs' => hQ a c' hc' (hs.trans hs')
    | dispatch a => exact absurd h.1 id

/-- All effects of the operation are calm. -/
def Operation.Calm (op : Operation ε α) : Prop := Program.Calm (ExceptT.run op)

namespace Operation.Calm

lemma orderly {op : Operation ε α} {Q : α → Chronicle → Prop} {c : Chronicle} (h : op.Calm)
    (hsettled : Settled c)
    (hQ : ∀ a c', Settled c' → SameProgress c.store c'.store → Q a c') :
    Operation.Orderly allowed op Q c :=
  Program.Calm.orderly h hsettled fun r c' hc' hs => match r with
    | .ok a => hQ a c' hc' hs
    | .error _ => hc'

lemma bind {op : Operation ε α} {f : α → Operation ε β} (h : op.Calm) (hf : ∀ a, (f a).Calm) :
    (op >>= f).Calm :=
  Program.Calm.bind h fun r => match r with
    | .ok a => hf a
    | .error _ => trivial

lemma pure (a : α) : (pure a : Operation ε α).Calm := trivial

lemma throw (e : ε) : (throw e : Operation ε α).Calm := trivial

lemma ofExcept (r : Except ε α) : (Operation.ofExcept r).Calm := trivial

lemma mapError {op : Operation ε α} {f : ε → ε'} (h : op.Calm) : (Operation.mapError f op).Calm :=
  Program.Calm.bind h fun _ => trivial

lemma read (view : Store → Except StoreError α) : (Operation.read view).Calm :=
  ⟨trivial, fun _ => trivial⟩

lemma now : (Operation.now : Operation ε Nat).Calm := ⟨trivial, fun _ => trivial⟩

lemma commit {t : Transaction α} {fence : Option Fence} (h : t.Calm) :
    (Operation.commit fence t).Calm := ⟨h, fun _ => trivial⟩

end Operation.Calm

/-- Work that is safe, and something calm behind it whatever comes of the work. -/
lemma Operation.Orderly.tidied {work : Operation ε α} {tidy : Operation ε' β} {c : Chronicle}
    (h : Operation.Orderly allowed work (fun _ => Settled) c) (htidy : tidy.Calm) :
    Operation.Orderly allowed (do
      let result ← ExceptT.lift (ExceptT.run work)
      let _ ← ExceptT.lift (ExceptT.run tidy)
      Operation.ofExcept result) (fun _ => Settled) c := by
  -- whether the work succeeds or fails, the same tidying comes behind it
  have htail : ∀ (result : Except ε α) (c : Chronicle), Settled c →
      Operation.Orderly allowed (do
        let _ ← ExceptT.lift (ExceptT.run tidy)
        Operation.ofExcept result) (fun _ => Settled) c := by
    intro result c h
    refine .bind (.lift (.attempt ?_ fun _ c h => ?_))
    · exact htidy.orderly h fun _ c h _ => .ofExcept h fun _ _ => h
    · exact .ofExcept h fun _ _ => h
  exact .bind (.lift (.attempt (h.mono fun a c h => htail _ c h) fun _ c h => htail _ c h))

/-! ## Resolvers and locks -/

/-- Resolving filters is calm. -/
def Resolver.Calm (resolver : Resolver) : Prop := ∀ filter, (resolver filter).Calm

open Operation.Calm in
lemma Resolver.ofStore_calm [Wildcard.Limit] : Resolver.Calm Resolver.ofStore := by
  intro filter
  refine bind ?_ fun source => bind (ofExcept _) fun expr =>
    bind (mapError (read _)) fun targets => pure _
  unfold expand
  split
  · refine bind (mapError (read _)) fun found => ?_
    cases found with
    | some saved => exact pure _
    | none => exact throw _
  · exact pure _

/-- A lock changes leases only. -/
structure RolloutLock.Calm (lock : RolloutLock) : Prop where
  acquire : ∀ id, (lock.acquire id).Calm
  renew : ∀ g, (lock.renew g).Calm
  release : ∀ g, (lock.release g).Calm

lemma RolloutLock.commit_calm {t : Transaction α} (h : t.Calm) : (RolloutLock.commit t).Calm :=
  .mapError (.commit h)

lemma RolloutLock.ofStore_calm (owner : String) (ttl : Nat) :
    RolloutLock.Calm (RolloutLock.ofStore owner ttl) where
  acquire id := by
    refine Operation.Calm.now.bind fun now =>
      (commit_calm (.acquireLease _ _ _ _)).bind fun grant => ?_
    cases grant with
    | granted l => exact .pure _
    | held l => exact .throw _
  renew g := by
    refine Operation.Calm.now.bind fun now =>
      (commit_calm (.renewLease _ _ _ _ _)).bind fun found => ?_
    cases found with
    | some l => exact .pure _
    | none => exact .pure _
  release g := (commit_calm (.releaseLease _ _ _)).bind fun _ => .pure _

end StagedRollout
