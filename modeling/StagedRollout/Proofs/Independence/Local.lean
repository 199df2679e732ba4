/-
# Programs on one rollout

A program is local to a rollout (`Program.Local`) if in worlds whose stores agree on the rollout's
region it comes to the same, and its runs change nothing beyond the region and leave stores that
agree on the region again.  The clock stands still, so that it does not matter how often it was
asked before.  Here are the rules by which this is shown of an operation piece by piece.

What is watched besides the rollout's own rows (`Region.own`) is left open.  Where everything is
watched the two stores are the same, and the rules speak of one run and what it leaves alone.
-/
import StagedRollout.Proofs.Independence.Transactions
import StagedRollout.Proofs.Program.Terms

namespace StagedRollout

open Store

variable {α β ε ε' : Type} {watched : Region} {env : Surroundings} {a : RolloutId}

/-! ## Surroundings -/

/-- The clock has one reading. -/
def Surroundings.Still (env : Surroundings) : Prop := ∀ n, env.clock n = env.clock 0

/-- What becomes of a message changes the lease of the action's rollout at most. -/
def Surroundings.Discreet (env : Surroundings) : Prop :=
  ∀ x s, Agree (.butLease x.rolloutId) s (env.deliver x s).2

/-- What becomes of a message depends on the rows of the action's rollout, and those that are
watched. -/
def Surroundings.Minds (watched : Region) (env : Surroundings) : Prop :=
  ∀ x s t, Agree (.own watched x.rolloutId) s t → (env.deliver x t).1 = (env.deliver x s).1 ∧
    Agree (.own watched x.rolloutId) (env.deliver x s).2 (env.deliver x t).2

/-- Clock and messages are such that programs on one rollout can be local to it. -/
structure Surroundings.Tame (watched : Region) (env : Surroundings) : Prop where
  still : env.Still
  discreet : env.Discreet
  minds : env.Minds watched

/-! ## Looking only -/

/-- Asks for the time, or looks at something that is the same in related stores. -/
def Effect.SeesAlike (R : Store → Store → Prop) : Effect β → Prop
  | clock => True
  | look view => ∀ s t, R s t → view t = view s
  | write _ _ | dispatch _ => False

/-- A program that changes nothing, and to which related stores look the same. -/
def Program.SeesAlike (R : Store → Store → Prop) : Program α → Prop
  | .done _ => True
  | .step e next => e.SeesAlike R ∧ ∀ b, (next b).SeesAlike R

namespace Program.SeesAlike

variable {R : Store → Store → Prop}

lemma bind {p : Program α} {f : α → Program β} (h : p.SeesAlike R)
    (hf : ∀ v, (f v).SeesAlike R) : (p >>= f).SeesAlike R := by
  induction p with
  | done v => exact hf v
  | step e next ih => exact ⟨h.1, fun b => ih b (h.2 b)⟩

lemma mono {R' : Store → Store → Prop} {p : Program α} (h : p.SeesAlike R)
    (hR : ∀ s t, R' s t → R s t) : p.SeesAlike R' := by
  induction p with
  | done v => trivial
  | step e next ih =>
    refine ⟨?_, fun b => ih b (h.2 b)⟩
    have he := h.1
    cases e with
    | clock => trivial
    | look view => exact fun s t hst => he s t (hR s t hst)
    | write fence t => exact he
    | dispatch x => exact he

/-- A program that changes nothing comes to the same in the same store. -/
lemma of_reads {p : Program α} (h : p.Reads) : p.SeesAlike (fun s t => t = s) := by
  induction p with
  | done v => trivial
  | step e next ih =>
    refine ⟨?_, fun b => ih b (h.2 b)⟩
    have he := h.1
    cases e with
    | clock => trivial
    | look view => exact fun s t hst => hst ▸ rfl
    | write fence t => exact he
    | dispatch x => exact he

end Program.SeesAlike

/-- An operation that changes nothing, and to which related stores look the same. -/
abbrev Operation.SeesAlike (R : Store → Store → Prop) (op : Operation ε α) : Prop :=
  Program.SeesAlike R (ExceptT.run op)

namespace Operation.SeesAlike

variable {R : Store → Store → Prop}

lemma bind {op : Operation ε α} {f : α → Operation ε β} (h : op.SeesAlike R)
    (hf : ∀ x, (f x).SeesAlike R) : (op >>= f).SeesAlike R :=
  Program.SeesAlike.bind h fun r => match r with
    | .ok x => hf x
    | .error _ => trivial

lemma mapError {op : Operation ε α} {f : ε → ε'} (h : op.SeesAlike R) :
    (Operation.mapError f op).SeesAlike R :=
  Program.SeesAlike.bind h fun r => match r with
    | .ok _ => trivial
    | .error _ => trivial

lemma read {view : Store → Except StoreError α} (h : ∀ s t, R s t → view t = view s) :
    (Operation.read view).SeesAlike R := ⟨h, fun _ => trivial⟩

end Operation.SeesAlike

/-! ## Local programs -/

/-- The fence, if there is one, is on a lease of the region. -/
def Region.Covers (p : Region) (fence : Option Fence) : Prop :=
  ∀ f, fence = some f → p.leases f.key

lemma Region.covers_own (watched : Region) (a : RolloutId) (owner : String) (token : Nat) :
    (Region.own watched a).Covers (some ⟨Lease.rolloutKey a, owner, token⟩) :=
  fun _ hf => Option.some.inj hf ▸ .inl rfl

/-- Of an error nothing is promised. -/
lemma promised_error {e : ε} {P : α → Prop} : ∀ x, (.error e : Except ε α) = .ok x → P x := by
  intro x h
  cases h

/-- What a commit of a local transaction does, behind a fence on a lease of the region. -/
lemma Transaction.Local.commit {t : Transaction α} {P : α → Prop} (ht : t.Local watched a P)
    {fence : Option Fence} (hfence : (Region.own watched a).Covers fence) (now : Nat)
    {s s₂ : Store} (hs : Agree (.own watched a) s s₂) (htidy : Tidy a s) :
    (s₂.commit fence now t).1 = (s.commit fence now t).1 ∧
      (∀ x, (s.commit fence now t).1 = .ok x → P x) ∧
        Twin watched a s s₂ (s.commit fence now t).2 (s₂.commit fence now t).2 := by
  have hcheck : checkFence fence now s₂ = checkFence fence now s := by
    cases fence with
    | none => rfl
    | some f =>
      simp only [checkFence, Fence.check, Table.read, hs.leases f.key (hfence f rfl)]
  unfold Store.commit
  rw [hcheck]
  cases checkFence fence now s with
  | error e => exact ⟨rfl, promised_error, .refl hs htidy⟩
  | ok _ =>
    rcases ht s s₂ hs htidy with ⟨e, hrun, hrun₂⟩ | ⟨v, s', s₂', hrun, hrun₂, hP, htwin⟩
    · rw [hrun, hrun₂]
      exact ⟨rfl, promised_error, .refl hs htidy⟩
    · rw [hrun, hrun₂]
      exact ⟨rfl, fun x hx => Except.ok.inj hx ▸ hP, htwin⟩

/-- In worlds whose stores agree on a rollout's region the program comes to the same, and it changes
nothing beyond the region.  The value is as promised. -/
def Program.Local (watched : Region) (env : Surroundings) (a : RolloutId) (p : Program α)
    (P : α → Prop) : Prop :=
  ∀ w v, Agree (.own watched a) w.store v.store → Tidy a w.store →
    (p.run env v).1 = (p.run env w).1 ∧ P (p.run env w).1 ∧
      Twin watched a w.store v.store (p.run env w).2.store (p.run env v).2.store

namespace Program.Local

variable {P : α → Prop}

lemma pure {v : α} (h : P v) : Program.Local watched env a (Program.done v) P :=
  fun _ _ hw htidy => ⟨rfl, h, .refl hw htidy⟩

lemma bind {p : Program α} {f : α → Program β} {Q : β → Prop} (h : Program.Local watched env a p P)
    (hf : ∀ v, P v → Program.Local watched env a (f v) Q) :
    Program.Local watched env a (p >>= f) Q := by
  intro w v hw htidy
  obtain ⟨hvalue, hP, htwin⟩ := h w v hw htidy
  obtain ⟨hvalue', hQ, htwin'⟩ := hf _ hP _ _ htwin.alike htwin.tidy
  rw [run_bind, run_bind, hvalue]
  exact ⟨hvalue', hQ, htwin.trans htwin'⟩

lemma mono {p : Program α} {Q : α → Prop} (h : Program.Local watched env a p P)
    (hQ : ∀ v, P v → Q v) : Program.Local watched env a p Q := fun w v hw htidy =>
  have ⟨hvalue, hP, htwin⟩ := h w v hw htidy
  ⟨hvalue, hQ _ hP, htwin⟩

lemma look {view : Store → α} (hview : ∀ s t, Agree (.own watched a) s t → view t = view s)
    (hP : ∀ s, Tidy a s → P (view s)) : Program.Local watched env a (Program.look view) P :=
  fun _ _ hw htidy => ⟨hview _ _ hw, hP _ htidy, .refl hw htidy⟩

lemma now (henv : env.Still) : Program.Local watched env a Program.now fun _ => True :=
  fun _ _ hw htidy => ⟨(henv _).trans (henv _).symm, trivial, .refl hw htidy⟩

/-- A program that changes nothing, and to which the rows of the region are all that matters. -/
lemma of_seesAlike {p : Program α} (henv : env.Still)
    (h : p.SeesAlike (Agree (.own watched a))) : Program.Local watched env a p fun _ => True := by
  induction p with
  | done v => exact pure trivial
  | step e next ih =>
    cases e with
    | clock => exact bind (now henv) fun n _ => ih n (h.2 n)
    | look view =>
      exact bind (look (P := fun _ => True) h.1 fun _ _ => trivial) fun x _ => ih x (h.2 x)
    | write fence t => exact h.1.elim
    | dispatch x => exact h.1.elim

/-- Telling a device about an action of the rollout. -/
lemma dispatch (henv : env.Tame watched) {x : Action} (hx : x.rolloutId = a) :
    Program.Local watched env a (Program.dispatch x) fun _ => True := by
  subst hx
  have hbeyond : ∀ s, Agree (.beyond x.rolloutId) s (env.deliver x s).2 := fun s =>
    (henv.discreet x s).mono (fun _ _ => trivial) (fun _ _ => trivial) fun _ h => h
  intro w v hw htidy
  obtain ⟨hanswer, halike⟩ := henv.minds x _ _ hw
  refine ⟨hanswer, trivial, hbeyond _, hbeyond _, halike, htidy.congr ?_⟩
  exact (henv.discreet x w.store).mono (fun _ _ => trivial) (fun _ _ => trivial) nofun

/-- A transaction, behind a fence on a lease of the region. -/
lemma write (henv : env.Still) {fence : Option Fence} {t : Transaction α}
    (hfence : (Region.own watched a).Covers fence) (ht : t.Local watched a P) :
    Program.Local watched env a (.step (.write fence t) .done)
      fun r => ∀ x, r = .ok x → P x := by
  intro w v hw htidy
  cases fence with
  | none => exact ht.commit hfence 0 hw htidy
  | some f =>
    have hcommit := ht.commit hfence (env.clock 0) hw htidy
    simp only [run_step, Effect.perform, World.readClock, henv w.readings, henv v.readings]
    exact hcommit

end Program.Local

/-! ## Local operations -/

/-- An operation that is local to a rollout.  The value, if there is one, is as promised. -/
def Operation.Local (watched : Region) (env : Surroundings) (a : RolloutId) (op : Operation ε α)
    (P : α → Prop) : Prop :=
  Program.Local watched env a (ExceptT.run op) fun r => ∀ x, r = .ok x → P x

namespace Operation.Local

variable {P : α → Prop}

lemma pure {x : α} (h : P x) :
    Operation.Local watched env a (pure x : Operation ε α) P :=
  Program.Local.pure fun _ hy => Except.ok.inj hy ▸ h

lemma throw (e : ε) : Operation.Local watched env a (throw e : Operation ε α) P :=
  Program.Local.pure promised_error

lemma ofExcept {r : Except ε α} (h : ∀ x, r = .ok x → P x) :
    Operation.Local watched env a (Operation.ofExcept r) P := Program.Local.pure h

lemma bind {op : Operation ε α} {f : α → Operation ε β} {Q : β → Prop}
    (h : Operation.Local watched env a op P)
    (hf : ∀ x, P x → Operation.Local watched env a (f x) Q) :
    Operation.Local watched env a (op >>= f) Q :=
  Program.Local.bind h fun r hr => match r with
    | .ok x => hf x (hr x rfl)
    | .error _ => .pure promised_error

lemma mapError {op : Operation ε α} {f : ε → ε'} (h : Operation.Local watched env a op P) :
    Operation.Local watched env a (Operation.mapError f op) P :=
  Program.Local.bind h fun r hr => match r with
    | .ok x => .pure fun _ hy => Except.ok.inj hy ▸ hr x rfl
    | .error _ => .pure promised_error

/-- A program among operations. -/
lemma lift {p : Program α} (h : Program.Local watched env a p P) :
    Operation.Local watched env a (ExceptT.lift p : Operation ε α) P :=
  Program.Local.bind h fun _ hx => .pure fun _ hy => Except.ok.inj hy ▸ hx

/-- An operation whose failure is looked at. -/
lemma attempt {op : Operation ε α} (h : Operation.Local watched env a op P) :
    Operation.Local watched env a (ExceptT.lift (ExceptT.run op) : Operation ε' (Except ε α))
      fun _ => True := lift (Program.Local.mono h fun _ _ => trivial)

lemma read {view : Store → Except StoreError α}
    (hview : ∀ s t, Agree (.own watched a) s t → view t = view s)
    (hP : ∀ s x, Tidy a s → view s = .ok x → P x) :
    Operation.Local watched env a (Operation.read view) P :=
  Program.Local.look hview fun s htidy x hx => hP s x htidy hx

lemma of_seesAlike {op : Operation ε α} (henv : env.Still)
    (h : op.SeesAlike (Agree (.own watched a))) :
    Operation.Local watched env a op fun _ => True :=
  Program.Local.mono (Program.Local.of_seesAlike henv h) fun _ _ _ _ => trivial

lemma now (henv : env.Still) :
    Operation.Local watched env a (Operation.now : Operation ε Nat) fun _ => True :=
  lift (.now henv)

lemma nowSeconds (henv : env.Still) :
    Operation.Local watched env a (Operation.nowSeconds : Operation ε Nat) fun _ => True :=
  lift (.bind (.now henv) fun _ _ => .pure trivial)

lemma commit (henv : env.Still) {fence : Option Fence} {t : Transaction α}
    (hfence : (Region.own watched a).Covers fence) (ht : t.Local watched a P) :
    Operation.Local watched env a (Operation.commit fence t) P := Program.Local.write henv hfence ht

end Operation.Local

end StagedRollout
