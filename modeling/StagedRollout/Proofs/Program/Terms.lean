/-
# Programs that keep to terms

What a program does from a given store, effect by effect: `Program.Under` says that every write does
what the terms allow, that messages are sent only where the terms allow it, and that the value and
the store at the end are as promised, whatever the clock says.  In contrast to a safe program
(`Program.Safe`) a write has the outcome that the store gives it, so it can be told of a program
that a fence turns it away.

The moments of a run are its effects with the stores around them.  A program that keeps to terms
does so at every moment of a run (`Under.run`), also when it is cut off (`Under.cut`).
-/
import StagedRollout.Proofs.Program.Safe

namespace StagedRollout

/-- What a program may do, and what may happen to it. -/
structure Terms where
  /-- What a write may do to the store. -/
  writes : Store → Store → Prop
  /-- The stores in which a device may be told about an action. -/
  tells : Action → Store → Prop
  /-- What may happen to the store while a device is told about an action. -/
  meanwhile : Store → Store → Prop

variable {α β γ ε ε' : Type} {T : Terms} {s : Store}

/-- What has to hold before an effect, so that it keeps to the terms and ends as promised. -/
def Effect.Under (T : Terms) : Effect β → (β → Store → Prop) → Store → Prop
  | clock, Q, s => ∀ now, Q now s
  | look view, Q, s => Q (view s) s
  | write fence t, Q, s => ∀ now, T.writes s (s.commit fence now t).2 ∧
      Q (s.commit fence now t).1 (s.commit fence now t).2
  | dispatch a, Q, s => T.tells a s ∧ ∀ answer s', T.meanwhile s s' → Q answer s'

lemma Effect.Under.mono {e : Effect β} {Q Q' : β → Store → Prop} (h : e.Under T Q s)
    (hQ : ∀ b s', Q b s' → Q' b s') : e.Under T Q' s := by
  cases e with
  | clock => exact fun now => hQ _ _ (h now)
  | look view => exact hQ _ _ h
  | write fence t => exact fun now => ⟨(h now).1, hQ _ _ (h now).2⟩
  | dispatch a => exact ⟨h.1, fun answer s' hs => hQ _ _ (h.2 answer s' hs)⟩

namespace Program

/-- Every effect keeps to the terms, and the end is as promised. -/
def Under (T : Terms) : Program α → (α → Store → Prop) → Store → Prop
  | done a, Q, s => Q a s
  | .step e next, Q, s => e.Under T (fun b s' => (next b).Under T Q s') s

namespace Under

variable {p : Program α} {Q Q' : α → Store → Prop}

lemma mono (h : p.Under T Q s) (hQ : ∀ a s', Q a s' → Q' a s') : p.Under T Q' s := by
  induction p generalizing s with
  | done a => exact hQ a s h
  | step e next ih => exact Effect.Under.mono h fun b s' hb => ih b hb

lemma bind {f : α → Program β} {Q : β → Store → Prop}
    (h : p.Under T (fun a s' => (f a).Under T Q s') s) : (p >>= f).Under T Q s := by
  induction p generalizing s with
  | done a => exact h
  | step e next ih => exact Effect.Under.mono h fun b s' hb => ih b hb

lemma pure {a : α} (h : Q a s) : (pure a : Program α).Under T Q s := h

lemma look {view : Store → α} (h : Q (view s) s) : (Program.look view).Under T Q s := h

end Under

end Program

/-! ## Operations -/

/-- An operation that keeps to terms, with a promise for its value and one for its error. -/
def Operation.Under (T : Terms) (op : Operation ε α) (Q : α → Store → Prop)
    (E : ε → Store → Prop) (s : Store) : Prop :=
  Program.Under T (ExceptT.run op) (fun r s' => match r with
    | .ok a => Q a s'
    | .error e => E e s') s

/-- What comes of a commit: the fence turns it away, the transaction is abandoned, or it is done. -/
lemma Store.commit_outcome (s : Store) (fence : Option Fence) (now : Nat) (t : Transaction α) :
    (∃ e, checkFence fence now s = .error e ∧ s.commit fence now t = (.error e, s)) ∨
      checkFence fence now s = .ok () ∧
        ((∃ e, t s = .error e ∧ s.commit fence now t = (.error e, s)) ∨
          ∃ a s', t s = .ok (a, s') ∧ s.commit fence now t = (.ok a, s')) := by
  unfold commit
  cases hcheck : checkFence fence now s with
  | error e => exact .inl ⟨e, rfl, rfl⟩
  | ok u =>
    refine .inr ⟨rfl, ?_⟩
    cases hrun : t s with
    | error e => exact .inl ⟨e, rfl, rfl⟩
    | ok p => exact .inr ⟨p.1, p.2, rfl, rfl⟩

namespace Operation.Under

variable {op : Operation ε α} {Q Q' : α → Store → Prop} {E E' : ε → Store → Prop}

lemma mono (h : Operation.Under T op Q E s) (hQ : ∀ a s', Q a s' → Q' a s')
    (hE : ∀ e s', E e s' → E' e s') : Operation.Under T op Q' E' s :=
  Program.Under.mono h fun r s' hr => match r with
    | .ok a => hQ a s' hr
    | .error e => hE e s' hr

lemma bind {f : α → Operation ε β} {Q : β → Store → Prop}
    (h : Operation.Under T op (fun a s' => Operation.Under T (f a) Q E s') E s) :
    Operation.Under T (op >>= f) Q E s :=
  Program.Under.bind (Program.Under.mono h fun r _ hr => match r with
    | .ok _ => hr
    | .error _ => hr)

lemma pure {a : α} (h : Q a s) : Operation.Under T (pure a : Operation ε α) Q E s := h

lemma throw {e : ε} (h : E e s) : Operation.Under T (throw e : Operation ε α) Q E s := h

lemma ofExcept {r : Except ε α} (hok : ∀ a, r = .ok a → Q a s)
    (herror : ∀ e, r = .error e → E e s) :
    Operation.Under T (Operation.ofExcept r) Q E s := by
  cases r with
  | ok a => exact hok a rfl
  | error e => exact herror e rfl

lemma mapError {f : ε → ε'} {E : ε' → Store → Prop}
    (h : Operation.Under T op Q (fun e => E (f e)) s) :
    Operation.Under T (Operation.mapError f op) Q E s :=
  Program.Under.bind (Program.Under.mono h fun r _ hr => match r with
    | .ok _ => hr
    | .error _ => hr)

/-- A program among operations. -/
lemma lift {p : Program α} (h : p.Under T Q s) :
    Operation.Under T (ExceptT.lift p : Operation ε α) Q E s :=
  Program.Under.bind (Program.Under.mono h fun _ _ hr => hr)

/-- An operation whose error is caught. -/
lemma attempt {Q : Except ε α → Store → Prop} {E : ε' → Store → Prop}
    (h : Operation.Under T op (fun a => Q (.ok a)) (fun e => Q (.error e)) s) :
    Operation.Under T (ExceptT.lift (ExceptT.run op) : Operation ε' (Except ε α)) Q E s :=
  lift (Program.Under.mono h fun r _ hr => match r with
    | .ok _ => hr
    | .error _ => hr)

lemma now {Q : Nat → Store → Prop} (h : ∀ n, Q n s) :
    Operation.Under T (Operation.now : Operation ε Nat) Q E s := lift h

lemma read {view : Store → Except StoreError α} {E : StoreError → Store → Prop}
    (hok : ∀ a, view s = .ok a → Q a s) (herror : ∀ e, view s = .error e → E e s) :
    Operation.Under T (Operation.read view) Q E s := by
  refine Program.Under.look ?_
  cases hview : view s with
  | ok a => exact hok a hview
  | error e => exact herror e hview

/-- A write: it is turned away by its fence, abandoned, or done. -/
lemma commit {t : Transaction α} {fence : Option Fence} {E : StoreError → Store → Prop}
    (hstay : T.writes s s) (hfence : ∀ now e, checkFence fence now s = .error e → E e s)
    (hrun : ∀ now, checkFence fence now s = .ok () →
      (∀ e, t s = .error e → E e s) ∧
        ∀ a s', t s = .ok (a, s') → T.writes s s' ∧ Q a s') :
    Operation.Under T (Operation.commit fence t) Q E s := by
  intro now
  rcases s.commit_outcome fence now t with
    ⟨e, hcheck, heq⟩ | ⟨hcheck, ⟨e, ht, heq⟩ | ⟨a, s', ht, heq⟩⟩
  · rw [heq]
    exact ⟨hstay, hfence now e hcheck⟩
  · rw [heq]
    exact ⟨hstay, (hrun now hcheck).1 e ht⟩
  · rw [heq]
    exact (hrun now hcheck).2 a s' ht

end Operation.Under

/-! ## Programs that only look, and programs without messages -/

/-- The effect neither writes nor sends anything. -/
def Effect.Reads : Effect β → Prop
  | clock | look _ => True
  | write _ _ | dispatch _ => False

/-- The program only looks at the store and the clock. -/
def Program.Reads : Program α → Prop
  | .done _ => True
  | .step e next => e.Reads ∧ ∀ b, (next b).Reads

lemma Program.Reads.bind {p : Program α} {g : α → Program β} (h : p.Reads)
    (hg : ∀ a, (g a).Reads) : (p >>= g).Reads := by
  induction p with
  | done a => exact hg a
  | step e next ih => exact ⟨h.1, fun b => ih b (h.2 b)⟩

lemma Program.Reads.under {p : Program α} {T : Terms} {Q : α → Store → Prop} (h : p.Reads)
    (hQ : ∀ a, Q a s) : p.Under T Q s := by
  induction p with
  | done a => exact hQ a
  | step e next ih =>
    cases e with
    | clock => exact fun n => ih n (h.2 n)
    | look view => exact ih _ (h.2 _)
    | write fence t => exact h.1.elim
    | dispatch a => exact h.1.elim

/-- The operation only looks at the store and the clock. -/
def Operation.Reads (op : Operation ε α) : Prop := Program.Reads (ExceptT.run op)

namespace Operation.Reads

lemma throw (e : ε) : Reads (throw e : Operation ε α) := trivial

lemma ofExcept (r : Except ε α) : Reads (ofExcept r) := trivial

lemma nowSeconds : Reads (nowSeconds : Operation ε Nat) := ⟨trivial, fun _ => trivial⟩

lemma bind {op : Operation ε α} {f : α → Operation ε β} (h : Reads op) (hf : ∀ a, Reads (f a)) :
    Reads (op >>= f) :=
  Program.Reads.bind h fun r => match r with
    | .ok a => hf a
    | .error _ => trivial

lemma mapError_read (f : StoreError → ε) (view : Store → Except StoreError α) :
    Reads (mapError f (Operation.read view)) := ⟨trivial, fun _ => trivial⟩

end Operation.Reads

/-- The terms of a program that sends no messages. -/
def Terms.silent : Terms := ⟨fun _ _ => True, fun _ _ => False, fun _ _ => True⟩

/-- The operation sends no messages. -/
def Operation.Silent (op : Operation ε α) : Prop :=
  ∀ s, Operation.Under Terms.silent op (fun _ _ => True) (fun _ _ => True) s

namespace Operation.Silent

lemma bind {op : Operation ε α} {g : α → Operation ε β} (h : Operation.Silent op)
    (hg : ∀ a, Operation.Silent (g a)) : Operation.Silent (op >>= g) := fun s =>
  .bind ((h s).mono (fun a s' _ => hg a s') fun _ _ h => h)

lemma attempt {op : Operation ε α} (h : Operation.Silent op) :
    Operation.Silent (ExceptT.lift (ExceptT.run op) : Operation ε' (Except ε α)) := fun s =>
  Operation.Under.attempt (h s)

lemma mapError {op : Operation ε α} {map : ε → ε'} (h : Operation.Silent op) :
    Operation.Silent (Operation.mapError map op) := fun s => .mapError (h s)

lemma ofExcept (r : Except ε α) : Operation.Silent (Operation.ofExcept r) := fun _ =>
  .ofExcept (fun _ _ => trivial) fun _ _ => trivial

lemma read (view : Store → Except StoreError α) : Operation.Silent (Operation.read view) :=
  fun _ => .read (fun _ _ => trivial) fun _ _ => trivial

lemma commit (fence : Option Fence) (t : Transaction α) :
    Operation.Silent (Operation.commit fence t) := fun _ =>
  .commit trivial (fun _ _ _ => trivial) fun _ _ =>
    ⟨fun _ _ => trivial, fun _ _ _ => ⟨trivial, trivial⟩⟩

end Operation.Silent

/-! ## Moments -/

/-- One effect of a run: the action that a device is told about, if the effect is a message, and
the stores around it. -/
structure Moment where
  message : Option Action
  before : Store
  after : Store

/-- The action of a message. -/
def Effect.message? : Effect β → Option Action
  | dispatch a => some a
  | _ => none

/-- The effects of a run, in order. -/
def Program.moments (env : Surroundings) : Program α → World → List Moment
  | done _, _ => []
  | .step e next, w =>
    ⟨e.message?, w.store, (e.perform env w).2.store⟩ ::
      (next (e.perform env w).1).moments env (e.perform env w).2

namespace Moment

variable {env : Surroundings} {s' : Store} {l : List Moment}

/-- Moments that lead from one store to another. -/
def Linked : Store → List Moment → Store → Prop
  | s, [], s' => s' = s
  | s, m :: rest, s' => m.before = s ∧ Linked m.after rest s'

/-- What every moment keeps holds at each of them and at the end. -/
lemma Linked.invariant {J : Store → Prop} (h : Linked s l s') (hJ : J s)
    (hkeep : ∀ m ∈ l, J m.before → J m.after) : (∀ m ∈ l, J m.before) ∧ J s' := by
  induction l generalizing s with
  | nil => exact ⟨fun _ hm => absurd hm List.not_mem_nil, h ▸ hJ⟩
  | cons m rest ih =>
    obtain ⟨rfl, hrest⟩ := h
    obtain ⟨hfirst, hlater⟩ := List.forall_mem_cons.1 hkeep
    obtain ⟨hall, hend⟩ := ih hrest (hfirst hJ) hlater
    exact ⟨List.forall_mem_cons.2 ⟨hJ, hall⟩, hend⟩

/-- What the moment may be under the terms. -/
structure Within (T : Terms) (env : Surroundings) (m : Moment) : Prop where
  own : m.message = none → m.after = m.before ∨ T.writes m.before m.after
  told : ∀ a, m.message = some a → T.tells a m.before ∧ m.after = (env.deliver a m.before).2

end Moment

variable {env : Surroundings} {w : World}

lemma Effect.Under.perform {e : Effect β} {Q : β → Store → Prop}
    (henv : ∀ a s, T.meanwhile s (env.deliver a s).2) (h : e.Under T Q w.store) :
    Moment.Within T env ⟨e.message?, w.store, (e.perform env w).2.store⟩ ∧
      Q (e.perform env w).1 (e.perform env w).2.store := by
  cases e with
  | clock => exact ⟨⟨fun _ => .inl rfl, nofun⟩, h _⟩
  | look view => exact ⟨⟨fun _ => .inl rfl, nofun⟩, h⟩
  | write fence t =>
    cases fence with
    | none => exact ⟨⟨fun _ => .inr (h 0).1, nofun⟩, (h 0).2⟩
    | some f =>
      exact ⟨⟨fun _ => .inr (h (env.clock w.readings)).1, nofun⟩, (h (env.clock w.readings)).2⟩
  | dispatch a =>
    refine ⟨⟨nofun, fun b hb => ?_⟩, h.2 _ _ (henv a w.store)⟩
    obtain rfl := Option.some.inj hb
    exact ⟨h.1, rfl⟩

namespace Program

/-- **A program that keeps to terms does so at every moment of a run**, and it ends as promised. -/
theorem Under.run {p : Program α} {Q : α → Store → Prop}
    (henv : ∀ a s, T.meanwhile s (env.deliver a s).2) (h : p.Under T Q w.store) :
    (∀ m ∈ p.moments env w, m.Within T env) ∧ Q (p.run env w).1 (p.run env w).2.store := by
  induction p generalizing w with
  | done a => exact ⟨fun _ hm => absurd hm List.not_mem_nil, h⟩
  | step e next ih =>
    obtain ⟨hfirst, hnext⟩ := Effect.Under.perform henv h
    obtain ⟨hall, hend⟩ := ih _ hnext
    exact ⟨List.forall_mem_cons.2 ⟨hfirst, hall⟩, hend⟩

lemma moments_linked (p : Program α) (env : Surroundings) (w : World) :
    Moment.Linked w.store (p.moments env w) (p.run env w).2.store := by
  induction p generalizing w with
  | done a => rfl
  | step e next ih => exact ⟨rfl, ih _ _⟩

lemma moments_bind (p : Program α) (f : α → Program β) (env : Surroundings) (w : World) :
    (p >>= f).moments env w =
      p.moments env w ++ (f (p.run env w).1).moments env (p.run env w).2 := by
  induction p generalizing w with
  | done a => rfl
  | step e next ih => exact congrArg _ (ih _ _)

/-- Devices are told about the actions of the messages, in order. -/
lemma dispatched_run (p : Program α) (env : Surroundings) (w : World) :
    (p.run env w).2.dispatched = w.dispatched ++ (p.moments env w).filterMap (·.message) := by
  induction p generalizing w with
  | done a => exact (List.append_nil _).symm
  | step e next ih =>
    rw [run_step, ih, moments]
    cases e with
    | clock => rfl
    | look view => rfl
    | write fence t => cases fence <;> rfl
    | dispatch a => exact List.append_assoc _ _ _

/-- **A program that keeps to terms does so when it is cut off**, which happens before a write. -/
theorem Under.cut {p : Program α} {Q : α → Store → Prop} (h : p.Under T Q s) (limit : Nat) :
    (p.cut limit).Under T (fun r s' => match r with
      | some a => Q a s'
      | none => ∃ s'', T.writes s' s'') s := by
  induction p generalizing s limit with
  | done a => exact h
  | step e next ih =>
    rw [cut.eq_def]
    by_cases he : e.isWrite = true
    · cases limit with
      | zero =>
        simp only [he, if_true]
        cases e with
        | write fence t => exact ⟨_, (h 0).1⟩
        | clock | look | dispatch => simp [Effect.isWrite] at he
      | succ limit =>
        simp only [he, if_true]
        exact Effect.Under.mono h fun b s' hb => ih b hb limit
    · simp only [he, if_false, Bool.false_eq_true]
      exact Effect.Under.mono h fun b s' hb => ih b hb limit

end Program

end StagedRollout
