/-
# What operators are answered

A command on a rollout is refused as a whole: behind an error, rollouts, groups and actions are as
they were before (`Operation.Answers`), though the rollout's lease was taken and given up.  Behind
a plain command that is not refused, the rollout is as the answer says (`command_answers`).  A new
rollout with the name of another one is refused before anything is written (`create_taken`).
-/
import StagedRollout.Operator.Command
import StagedRollout.Proofs.Program.Calm
import StagedRollout.Proofs.Program.Terms

namespace StagedRollout

open Store

variable {α β ε ε' : Type} {s s' : Store}

/-! ## Operations that are refused as a whole -/

/-- The operation ends with a value as promised, or with an error and with rollouts, groups and
actions as they were in the store `s`.  It sends no messages. -/
def Operation.Answers (s : Store) (op : Operation ε α) (Q : α → Store → Prop) (s' : Store) : Prop :=
  Operation.Under Terms.silent op Q (fun _ => SameProgress s) s'

lemma Program.Calm.under {p : Program α} {Q : α → Store → Prop} (h : p.Calm)
    (hQ : ∀ a s', SameProgress s s' → Q a s') : p.Under Terms.silent Q s := by
  induction p generalizing s with
  | done a => exact hQ a s (.refl s)
  | step e next ih =>
    cases e with
    | clock => exact fun n => ih n (h.2 n) hQ
    | look view => exact ih _ (h.2 _) hQ
    | write fence t =>
      refine fun now => ⟨trivial, ih _ (h.2 _) fun a s' hs' => hQ a s' ?_⟩
      rcases s.commit_cases fence now t with ⟨e, heq⟩ | ⟨b, s₁, hrun, heq⟩
      · rw [heq] at hs'
        exact hs'
      · rw [heq] at hs'
        exact (h.1 _ _ _ hrun).trans hs'
    | dispatch a => exact absurd h.1 id

namespace Operation.Answers

variable {op : Operation ε α} {Q : α → Store → Prop}

/-- Calm operations change nothing, whatever their answer. -/
lemma of_calm (h : op.Calm) (hs : SameProgress s s')
    (hQ : ∀ a s'', SameProgress s s'' → Q a s'') : Operation.Answers s op Q s' :=
  Program.Calm.under h fun r s'' hs'' => match r with
    | .ok a => hQ a s'' (hs.trans hs'')
    | .error _ => hs.trans hs''

lemma bind {f : α → Operation ε β} {Q : β → Store → Prop}
    (h : Operation.Answers s op (fun a => Operation.Answers s (f a) Q) s') :
    Operation.Answers s (op >>= f) Q s' := Operation.Under.bind h

lemma mapError {f : ε → ε'} (h : Operation.Answers s op Q s') :
    Operation.Answers s (Operation.mapError f op) Q s' := Operation.Under.mapError h

lemma ofExcept {r : Except ε α} (hs : SameProgress s s') (hok : ∀ a, r = .ok a → Q a s') :
    Operation.Answers s (Operation.ofExcept r) Q s' := Operation.Under.ofExcept hok fun _ _ => hs

lemma nowSeconds {Q : Nat → Store → Prop} (h : ∀ now, Q now s') :
    Operation.Answers s (Operation.nowSeconds : Operation ε Nat) Q s' :=
  Operation.Under.lift fun now => h (now / 1000)

lemma read {view : Store → Except StoreError α} (hs : SameProgress s s')
    (hok : ∀ a, view s' = .ok a → Q a s') : Operation.Answers s (Operation.read view) Q s' :=
  Operation.Under.read hok fun _ _ => hs

/-- A write that is turned away or abandoned changes nothing. -/
lemma commit {t : Transaction α} {fence : Option Fence} (hs : SameProgress s s')
    (hrun : ∀ a s'', t s' = .ok (a, s'') → Q a s'') :
    Operation.Answers s (Operation.commit fence t) Q s' :=
  Operation.Under.commit trivial (fun _ _ _ => hs) fun _ _ =>
    ⟨fun _ _ => hs, fun a s'' h => ⟨trivial, hrun a s'' h⟩⟩

/-- Something calm may come behind the work, whatever comes of the work. -/
lemma tidied {tidy : Operation ε' β} (h : Operation.Answers s op Q s') (htidy : tidy.Calm)
    (hQ : ∀ a s₁ s₂, SameProgress s₁ s₂ → Q a s₁ → Q a s₂) :
    Operation.Answers s (do
      let result ← ExceptT.lift (ExceptT.run op)
      let _ ← ExceptT.lift (ExceptT.run tidy)
      Operation.ofExcept result) Q s' := by
  refine Operation.Under.bind (.attempt (h.mono (fun a s₁ ha => ?_) fun e s₁ hs => ?_))
  · refine Operation.Under.bind (.lift (Program.Calm.under htidy fun _ s₂ hs => ?_))
    exact hQ a s₁ s₂ hs ha
  · refine Operation.Under.bind (.lift (Program.Calm.under htidy fun _ s₂ hs' => ?_))
    exact hs.trans hs'

end Operation.Answers

/-! ## Commands -/

namespace Operator

variable {m : Operator} {id : RolloutId}

lemma requireRollout_answers {Q : Rollout → Store → Prop} (hs : SameProgress s s')
    (hQ : ∀ r, s'.rollout? id = some r → Q r s') :
    Operation.Answers s (Progression.requireRollout id) Q s' := by
  refine .bind (.mapError (.read hs fun found hread => ?_))
  cases found with
  | some r => exact hQ r (Table.read_eq_some_iff.1 hread)
  | none => exact hs

/-- Work on a rollout is refused as a whole while holding the rollout's lease. -/
lemma withLease_answers {work : Fence → Rollout → Operation RolloutError α}
    {Q : α → Store → Prop} (hQ : ∀ a s₁ s₂, SameProgress s₁ s₂ → Q a s₁ → Q a s₂)
    (hwork : ∀ fence r s', SameProgress s s' → s'.rollout? id = some r →
      Operation.Answers s (work fence r) Q s') :
    Operation.Answers s (m.withLease id work) Q s := by
  refine .bind (Operation.Under.now fun now => .bind (.of_calm
    (.mapError (.commit (.acquireLease _ _ _ _))) (.refl s) fun grant s' hs => ?_))
  cases grant with
  | held l => exact hs
  | granted l =>
    refine .tidied (.bind (requireRollout_answers hs fun r hr => ?_))
      (.commit (.releaseLease _ _ _)) hQ
    exact hwork _ r s' hs hr

/-- A rollout has followed a command, and its row is as it was answered. -/
def Followed (s : Store) (id : RolloutId) (c : Command) (r' : Rollout) (s' : Store) : Prop :=
  s'.rollout? id = some r' ∧ ∃ r now, s.rollout? id = some r ∧ r.apply? c now = some r'

/-- **Behind a plain command the rollout is as the operator was answered.** -/
theorem command_answers (h : Keyed s) (c : Command) :
    Operation.Answers s (m.command id c) (Followed s id c) s := by
  refine withLease_answers (fun r' s₁ s₂ hs hfollowed => ?_) fun fence r s' hs hr => ?_
  · obtain ⟨hrow, hbefore⟩ := hfollowed
    refine ⟨?_, hbefore⟩
    rw [rollout?, hs.rollouts]
    exact hrow
  · refine .bind (.nowSeconds fun now => .bind (.ofExcept hs fun r' happly => ?_))
    refine .bind (.mapError (.commit hs fun _ s'' hrun => ?_))
    obtain rfl : s'' = s'.withRollout r' := Transaction.modify_eq_ok hrun
    have hrow : s.rollout? id = some r := by
      rw [rollout?, ← hs.rollouts]
      exact hr
    have happlied := Rollout.apply_eq_ok happly
    have hid : r'.id = id := (Rollout.id_of_apply happlied).trans (h.rollout_key hrow).1
    refine ⟨?_, r, now, hrow, happlied⟩
    rw [rollout?_withRollout, if_pos hid.symm]

/-- Resuming is refused as a whole. -/
lemma resume_answers : Operation.Answers s (m.resume id) (fun _ _ => True) s := by
  refine withLease_answers (fun _ _ _ _ _ => trivial) fun fence r s' hs hr => ?_
  refine .bind (.nowSeconds fun now => .bind (.ofExcept hs fun r' _ => ?_))
  refine .bind (.mapError (.read hs fun groups _ => ?_))
  exact .bind (.mapError (.commit hs fun _ _ _ => trivial))

/-- Stopping is refused as a whole. -/
lemma stop_answers : Operation.Answers s (m.stop id) (fun _ _ => True) s := by
  refine withLease_answers (fun _ _ _ _ _ => trivial) fun fence r s' hs hr => ?_
  refine .bind (.nowSeconds fun now => .bind (.ofExcept hs fun r' _ => ?_))
  exact .bind (.mapError (.commit hs fun _ _ _ => trivial))

/-! ## Creation -/

/-- The terms of a program that may only look. -/
def looking : Terms := ⟨fun _ _ => False, fun _ _ => False, fun _ _ => True⟩

lemma looking_meanwhile (env : Surroundings) (a : Action) (s : Store) :
    looking.meanwhile s (env.deliver a s).2 := trivial

/-- **A name that is taken is refused**, and nothing is written. -/
theorem create_taken (m : Operator) (resolver : Resolver) {n : NewRollout} {r : Rollout}
    (hr : s.rollout? n.name = some r) :
    Operation.Under looking (m.create resolver n) (fun _ _ => False) (fun _ s' => s' = s) s := by
  refine .bind (.ofExcept (fun _ _ => ?_) fun _ _ => rfl)
  refine .bind (.mapError (.read (fun found hread => ?_) fun _ _ => rfl))
  obtain rfl : some r = found := by
    rw [← hr]
    exact Table.intact?_of_read hread
  exact .throw rfl

end Operator

end StagedRollout
