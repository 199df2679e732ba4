/-
# Safe programs

What can happen while a program runs: `Program.Safe` says of a program that every write of it is a
step, that the world is settled before every write, and that the value and the world at the end are
as promised, whatever the clock says, whichever fences hold and whatever becomes of messages to
devices.  A safe program can be run (`Safe.run`), and it can be cut off before any of its writes
(`Safe.cut`).

A chronicle is what a program leaves behind: the store, the actions that its writes created and
those that devices were told about.
-/
import StagedRollout.Program
import StagedRollout.Proofs.Store.History

namespace StagedRollout

open Store (SameProgress)

/-- A store, the actions that were created so far, and those that devices were told about. -/
structure Chronicle where
  store : Store
  created : List Action
  dispatched : List Action

namespace Chronicle

/-- The chronicle of a world with a history. -/
def ofWorld (w : World) (history : List Action) : Chronicle := ⟨w.store, history, w.dispatched⟩

/-- The chronicle behind a write. -/
def wrote (c : Chronicle) (s : Store) : Chronicle :=
  ⟨s, c.created ++ Store.created c.store s, c.dispatched⟩

/-- The chronicle behind a message to a device. -/
def told (c : Chronicle) (a : Action) (s : Store) : Chronicle :=
  ⟨s, c.created ++ Store.created c.store s, c.dispatched ++ [a]⟩

end Chronicle

/-- Messages to devices leave rollouts, groups and actions alone; they may change leases. -/
def Surroundings.Gentle (env : Surroundings) : Prop := ∀ a s, SameProgress s (env.deliver a s).2

lemma Store.created_of_sameProgress {s s' : Store} (h : SameProgress s s') :
    Store.created s s' = [] :=
  created_eq_nil fun id hnone => by rw [action?, h.actions, ← action?, hnone]

variable {α β γ ε ε' : Type} {step : Store → Store → Prop} {settled : Chronicle → Prop}

/-- What has to hold before an effect, so that all its outcomes are as promised. -/
def Effect.Post (step : Store → Store → Prop) (settled : Chronicle → Prop) :
    Effect β → (β → Chronicle → Prop) → Chronicle → Prop
  | clock, Q, c => ∀ now, Q now c
  | look view, Q, c => Q (view c.store) c
  | write _ t, Q, c => settled c ∧ (∀ e, Q (.error e) c) ∧
      ∀ a s, t c.store = .ok (a, s) → step c.store s ∧ Q (.ok a) (c.wrote s)
  | dispatch a, Q, c => ∀ answer s, SameProgress c.store s → Q answer (c.told a s)

lemma Effect.Post.mono {e : Effect β} {Q Q' : β → Chronicle → Prop} {c : Chronicle}
    (h : e.Post step settled Q c) (hQ : ∀ b c', Q b c' → Q' b c') :
    e.Post step settled Q' c := by
  cases e with
  | clock => exact fun now => hQ _ _ (h now)
  | look view => exact hQ _ _ h
  | write fence t =>
    obtain ⟨hsettled, herror, hok⟩ := h
    exact ⟨hsettled, fun e => hQ _ _ (herror e), fun a s hrun =>
      ⟨(hok a s hrun).1, hQ _ _ (hok a s hrun).2⟩⟩
  | dispatch a => exact fun answer s hs => hQ _ _ (h answer s hs)

namespace Program

/-- Every write is a step from a settled world, and the end is as promised. -/
def Safe (step : Store → Store → Prop) (settled : Chronicle → Prop) :
    Program α → (α → Chronicle → Prop) → Chronicle → Prop
  | done a, Q, c => Q a c
  | .step e next, Q, c => e.Post step settled (fun b c' => (next b).Safe step settled Q c') c

variable {Q Q' : α → Chronicle → Prop} {c : Chronicle}

lemma Safe.mono {p : Program α} (h : p.Safe step settled Q c) (hQ : ∀ a c', Q a c' → Q' a c') :
    p.Safe step settled Q' c := by
  induction p generalizing c with
  | done a => exact hQ a c h
  | step e next ih => exact Effect.Post.mono h fun b c' hb => ih b hb

/-- A program goes on safely with what comes behind it. -/
lemma Safe.bind {p : Program α} {f : α → Program β} {Q : β → Chronicle → Prop}
    (h : p.Safe step settled (fun a c' => (f a).Safe step settled Q c') c) :
    (p >>= f).Safe step settled Q c := by
  induction p generalizing c with
  | done a => exact h
  | step e next ih => exact Effect.Post.mono h fun b c' hb => ih b hb

/-! ## Running -/

/-- The actions that the writes of a program create. -/
def created (env : Surroundings) : Program α → World → List Action
  | done _, _ => []
  | .step e next, w =>
    Store.created w.store (e.perform env w).2.store ++
      (next (e.perform env w).1).created env (e.perform env w).2

end Program

/-- Steps lead from one store to another and create actions on the way, in order. -/
inductive Trail (step : Store → Store → Prop) : Store → List Action → Store → Prop
  | nil (s : Store) : Trail step s [] s
  | cons {s s' s'' : Store} {l : List Action} (h : step s s') (rest : Trail step s' l s'') :
      Trail step s (Store.created s s' ++ l) s''

lemma Trail.append {s s' s'' : Store} {l l' : List Action} (h : Trail step s l s')
    (h' : Trail step s' l' s'') : Trail step s (l ++ l') s'' := by
  induction h with
  | nil s => exact h'
  | cons hs _ ih =>
    rw [List.append_assoc]
    exact .cons hs (ih h')

/-- What every step keeps holds at the end of a trail. -/
lemma Trail.invariant {J : Store → List Action → Prop} {s s' : Store} {l : List Action}
    (h : Trail step s l s') (history : List Action)
    (hstep : ∀ s s' history, J s history → step s s' → J s' (history ++ Store.created s s'))
    (hJ : J s history) : J s' (history ++ l) := by
  induction h generalizing history with
  | nil s => simpa using hJ
  | cons hs _ ih =>
    rw [← List.append_assoc]
    exact ih _ (hstep _ _ _ hJ hs)

/-- What has changed behind a trail was changed by a first step. -/
lemma Trail.exists_change {s s' : Store} {l : List Action} (h : Trail step s l s')
    (view : Store → β) (hne : view s' ≠ view s) :
    ∃ t t' l₁ l₂, Trail step s l₁ t ∧ view t = view s ∧ step t t' ∧ view t' ≠ view t ∧
      Trail step t' l₂ s' := by
  induction h with
  | nil s => exact absurd rfl hne
  | @cons s s₁ s' l hs hrest ih =>
    by_cases heq : view s₁ = view s
    · obtain ⟨t, t', l₁, l₂, hbefore, hsame, hstep, hchange, hafter⟩ := ih (heq ▸ hne)
      exact ⟨t, t', _, l₂, .cons hs hbefore, hsame.trans heq, hstep, hchange, hafter⟩
    · exact ⟨s, s₁, [], l, .nil s, rfl, hs, heq, hrest⟩

/-- What does not hold any more behind a trail was given up by a first step. -/
lemma Trail.exists_break {P : Store → Prop} {s s' : Store} {l : List Action}
    (h : Trail step s l s') (hP : P s) (hnot : ¬ P s') :
    ∃ t t' l₁ l₂, Trail step s l₁ t ∧ P t ∧ step t t' ∧ ¬ P t' ∧ Trail step t' l₂ s' := by
  have hne : P s' ≠ P s := fun heq => hnot (heq ▸ hP)
  obtain ⟨t, t', l₁, l₂, hbefore, hsame, hstep, hchange, hafter⟩ := h.exists_change P hne
  have ht : P t := hsame ▸ hP
  refine ⟨t, t', l₁, l₂, hbefore, ht, hstep, fun ht' => hchange ?_, hafter⟩
  exact propext ⟨fun _ => ht, fun _ => ht'⟩

variable {env : Surroundings} {w : World} {history : List Action}

/-- A commit changes nothing, or it does what the transaction does. -/
lemma Store.commit_cases (s : Store) (fence : Option Fence) (now : Nat) (t : Transaction α) :
    (∃ e, s.commit fence now t = (.error e, s)) ∨
      ∃ a s', t s = .ok (a, s') ∧ s.commit fence now t = (.ok a, s') := by
  unfold commit
  split
  · rename_i e _
    exact .inl ⟨e, rfl⟩
  · split
    · rename_i e _
      exact .inl ⟨e, rfl⟩
    · rename_i a s' hrun
      exact .inr ⟨a, s', hrun, rfl⟩

lemma Effect.Post.commit {t : Transaction α} {fence : Option Fence}
    {Q : Except StoreError α → Chronicle → Prop} {c : Chronicle}
    (hstay : step c.store c.store) (h : Effect.Post step settled (.write fence t) Q c) (now : Nat) :
    step c.store (c.store.commit fence now t).2 ∧
      Q (c.store.commit fence now t).1 (c.wrote (c.store.commit fence now t).2) := by
  obtain ⟨-, herror, hok⟩ := h
  rcases c.store.commit_cases fence now t with ⟨e, heq⟩ | ⟨a, s', hrun, heq⟩
  -- a transaction that is abandoned leaves the store as it was
  · have hsame : c.wrote c.store = c := by
      rw [Chronicle.wrote, Store.created_of_sameProgress (.refl c.store), List.append_nil]
    rw [heq]
    refine ⟨hstay, ?_⟩
    change Q (.error e) (c.wrote c.store)
    rw [hsame]
    exact herror e
  · rw [heq]
    exact hok a s' hrun

/-- An effect is a step at most, and its outcome is as promised. -/
lemma Effect.Post.perform {e : Effect β} {Q : β → Chronicle → Prop} (henv : env.Gentle)
    (hbeside : ∀ {s s'}, SameProgress s s' → step s s')
    (h : e.Post step settled Q (.ofWorld w history)) :
    step w.store (e.perform env w).2.store ∧
      Q (e.perform env w).1 (.ofWorld (e.perform env w).2
        (history ++ Store.created w.store (e.perform env w).2.store)) := by
  have hstay : step w.store w.store := hbeside (.refl w.store)
  have hsame : history ++ Store.created w.store w.store = history := by
    rw [Store.created_of_sameProgress (.refl w.store), List.append_nil]
  cases e with
  | clock =>
    refine ⟨hstay, ?_⟩
    change Q _ ⟨w.store, history ++ Store.created w.store w.store, w.dispatched⟩
    rw [hsame]
    exact h _
  | look view =>
    refine ⟨hstay, ?_⟩
    change Q _ ⟨w.store, history ++ Store.created w.store w.store, w.dispatched⟩
    rw [hsame]
    exact h
  | write fence t =>
    cases fence with
    | none => exact h.commit hstay 0
    | some f => exact h.commit hstay (env.clock w.readings)
  | dispatch a => exact ⟨hbeside (henv a w.store), h _ _ (henv a w.store)⟩

namespace Program

/-- **A safe program runs as promised**, and its steps make a trail. -/
theorem Safe.run {p : Program α} {Q : α → Chronicle → Prop} (henv : env.Gentle)
    (hbeside : ∀ {s s'}, SameProgress s s' → step s s')
    (h : p.Safe step settled Q (.ofWorld w history)) :
    Trail step w.store (p.created env w) (p.run env w).2.store ∧
      Q (p.run env w).1 (.ofWorld (p.run env w).2 (history ++ p.created env w)) := by
  induction p generalizing w history with
  | done a =>
    refine ⟨.nil w.store, ?_⟩
    rw [created, List.append_nil]
    exact h
  | step e next ih =>
    obtain ⟨hstep, hnext⟩ := Effect.Post.perform henv hbeside h
    obtain ⟨htrail, hend⟩ := ih _ hnext
    rw [run_step, created, ← List.append_assoc]
    exact ⟨.cons hstep htrail, hend⟩

/-! ## Cutting off -/

/-- A program that ends before it makes more than a number of writes. -/
def cut : Nat → Program α → Program (Option α)
  | _, done a => done (some a)
  | limit, .step e next =>
    if e.isWrite then
      match limit with
      | 0 => done none
      | limit + 1 => .step e fun b => (next b).cut limit
    else .step e fun b => (next b).cut limit

/-- Cutting a program off is running it for a number of writes. -/
lemma run_cut (limit : Nat) (p : Program α) (w : World) :
    (p.cut limit).run env w = p.runWrites env limit w := by
  induction p generalizing limit w with
  | done a => rfl
  | step e next ih =>
    rw [cut.eq_def, runWrites.eq_def]
    cases limit with
    | zero =>
      by_cases he : e.isWrite = true
      · simp only [he, if_true]
        rfl
      · simp only [he, if_false, Bool.false_eq_true]
        exact ih _ 0 _
    | succ limit =>
      by_cases he : e.isWrite = true
      · simp only [he, if_true]
        exact ih _ limit _
      · simp only [he, if_false, Bool.false_eq_true]
        exact ih _ (limit + 1) _

/-- **A safe program may be cut off before any of its writes.** -/
theorem Safe.cut {p : Program α} {Q : α → Chronicle → Prop} {c : Chronicle}
    (h : p.Safe step settled Q c) (limit : Nat) :
    (p.cut limit).Safe step settled
      (fun r c' => match r with
        | some a => Q a c'
        | none => settled c') c := by
  induction p generalizing c limit with
  | done a => exact h
  | step e next ih =>
    rw [cut.eq_def]
    by_cases he : e.isWrite = true
    · cases limit with
      | zero =>
        -- no write is left, but the world is settled in front of this one
        simp only [he, if_true]
        cases e with
        | write fence t => exact h.1
        | clock | look | dispatch => simp [Effect.isWrite] at he
      | succ limit =>
        simp only [he, if_true]
        exact Effect.Post.mono h fun b c' hb => ih b hb limit
    · simp only [he, if_false, Bool.false_eq_true]
      exact Effect.Post.mono h fun b c' hb => ih b hb limit

end Program

end StagedRollout
