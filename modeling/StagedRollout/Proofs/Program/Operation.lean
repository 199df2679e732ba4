/-
# Safe operations

The operations of schedulers, operators and devices are safe with respect to the steps of a store:
they write only what `Store.Step` allows, and between two writes the store is sound and devices
were told about exactly the actions that were created (`Settled`).  Here are the rules by which
this is shown of an operation piece by piece.  The rules hide the chronicle: behind a write that
issues nothing it is any settled one with the store that was written.
-/
import StagedRollout.Proofs.Program.Safe

namespace StagedRollout

open Store

/-- The store is sound, and devices were told about exactly the actions that were created. -/
structure Settled (c : Chronicle) : Prop where
  sound : Sound c.store
  told : c.dispatched = c.created

lemma Settled.of_sameProgress {c : Chronicle} {s : Store} (h : Settled c)
    (hs : SameProgress c.store s) : Settled (c.wrote s) where
  sound := h.sound.congr hs
  told := by
    rw [Chronicle.wrote, created_of_sameProgress hs, List.append_nil]
    exact h.told

lemma Settled.move {allowed : Intent → Prop} {c : Chronicle} {s : Store} (h : Settled c)
    (hm : Move allowed c.store s) : Settled (c.wrote s) where
  sound := h.sound.move hm
  told := by
    rw [Chronicle.wrote, (hm.keeps h.sound).created_eq_nil, List.append_nil]
    exact h.told

lemma step_of_sameProgress {allowed : Intent → Prop} {s s' : Store} (h : SameProgress s s') :
    Step allowed s s' := .inl (.beside h)

lemma Trail.sound {allowed : Intent → Prop} {s s' : Store} {l : List Action}
    (h : Trail (Step allowed) s l s') (hs : Sound s) : Sound s' :=
  h.invariant (J := fun s _ => Sound s) [] (fun _ _ _ ht hs => ht.step hs) hs

/-- What every step from a sound store keeps holds at the end of a trail. -/
lemma Trail.keeps {allowed : Intent → Prop} {J : Store → Prop} {s s' : Store} {l : List Action}
    (h : Trail (Step allowed) s l s') (hs : Sound s)
    (hstep : ∀ t t', Sound t → Step allowed t t' → J t → J t') (hJ : J s) : J s' :=
  (h.invariant (J := fun s _ => Sound s ∧ J s) []
    (fun _ _ _ ht hs => ⟨ht.1.step hs, hstep _ _ ht.1 hs ht.2⟩) ⟨hs, hJ⟩).2

variable {α β ε ε' : Type} (allowed : Intent → Prop)

/-- A program whose writes are steps between settled chronicles. -/
def Program.Orderly (p : Program α) (Q : α → Chronicle → Prop) (c : Chronicle) : Prop :=
  p.Safe (Step allowed) Settled Q c

/-- An operation whose writes are steps between settled chronicles.  Where it fails, the chronicle
is settled too. -/
def Operation.Orderly (op : Operation ε α) (Q : α → Chronicle → Prop) (c : Chronicle) : Prop :=
  Program.Orderly allowed (ExceptT.run op) (fun r c' => match r with
    | .ok a => Q a c'
    | .error _ => Settled c') c

variable {allowed}

namespace Program.Orderly

variable {Q Q' : α → Chronicle → Prop} {c : Chronicle}

lemma mono {p : Program α} (h : Program.Orderly allowed p Q c) (hQ : ∀ a c', Q a c' → Q' a c') :
    Program.Orderly allowed p Q' c := Program.Safe.mono h hQ

lemma bind {p : Program α} {f : α → Program β} {Q : β → Chronicle → Prop}
    (h : Program.Orderly allowed p (fun a c' => Program.Orderly allowed (f a) Q c') c) :
    Program.Orderly allowed (p >>= f) Q c := Program.Safe.bind h

lemma pure {a : α} (h : Q a c) : Program.Orderly allowed (pure a) Q c := h

lemma now {Q : Nat → Chronicle → Prop} (h : ∀ n, Q n c) :
    Program.Orderly allowed Program.now Q c := h

lemma nowSeconds {Q : Nat → Chronicle → Prop} (h : ∀ n, Q n c) :
    Program.Orderly allowed Program.nowSeconds Q c := fun n => h (n / 1000)

lemma look {view : Store → α} (h : Q (view c.store) c) :
    Program.Orderly allowed (Program.look view) Q c := h

end Program.Orderly

namespace Operation.Orderly

variable {Q Q' : α → Chronicle → Prop} {c : Chronicle}

lemma mono {op : Operation ε α} (h : Operation.Orderly allowed op Q c)
    (hQ : ∀ a c', Q a c' → Q' a c') : Operation.Orderly allowed op Q' c :=
  Program.Safe.mono h fun r c' hr => match r with
    | .ok a => hQ a c' hr
    | .error _ => hr

lemma bind {op : Operation ε α} {f : α → Operation ε β} {Q : β → Chronicle → Prop}
    (h : Operation.Orderly allowed op (fun a c' => Operation.Orderly allowed (f a) Q c') c) :
    Operation.Orderly allowed (op >>= f) Q c :=
  Program.Safe.bind (Program.Safe.mono h fun r _ hr => match r with
    | .ok _ => hr
    | .error _ => hr)

lemma pure {a : α} (h : Q a c) : Operation.Orderly allowed (pure a : Operation ε α) Q c := h

lemma throw {e : ε} (h : Settled c) :
    Operation.Orderly allowed (throw e : Operation ε α) Q c := h

lemma ofExcept {r : Except ε α} (hsettled : Settled c) (h : ∀ a, r = .ok a → Q a c) :
    Operation.Orderly allowed (Operation.ofExcept r) Q c := by
  cases r with
  | ok a => exact h a rfl
  | error e => exact hsettled

lemma mapError {op : Operation ε α} {f : ε → ε'} (h : Operation.Orderly allowed op Q c) :
    Operation.Orderly allowed (Operation.mapError f op) Q c :=
  Program.Safe.bind (Program.Safe.mono h fun r _ hr => match r with
    | .ok _ => hr
    | .error _ => hr)

/-- A program among operations. -/
lemma lift {p : Program α} (h : Program.Orderly allowed p Q c) :
    Operation.Orderly allowed (ExceptT.lift p : Operation ε α) Q c :=
  Program.Safe.bind (Program.Safe.mono h fun _ _ hr => hr)

lemma now {Q : Nat → Chronicle → Prop} (h : ∀ n, Q n c) :
    Operation.Orderly allowed (Operation.now : Operation ε Nat) Q c := lift (.now h)

lemma nowSeconds {Q : Nat → Chronicle → Prop} (h : ∀ n, Q n c) :
    Operation.Orderly allowed (Operation.nowSeconds : Operation ε Nat) Q c := lift (.nowSeconds h)

lemma read {view : Store → Except StoreError α} (hsettled : Settled c)
    (h : ∀ a, view c.store = .ok a → Q a c) :
    Operation.Orderly allowed (Operation.read view) Q c := by
  refine Program.Orderly.look ?_
  cases hview : view c.store with
  | ok a => exact h a hview
  | error e => exact hsettled

/-- A write that issues nothing: what it does to the store is a move. -/
lemma commit {t : Transaction α} {fence : Option Fence} (hsettled : Settled c)
    (h : ∀ a s, t c.store = .ok (a, s) → Move allowed c.store s ∧
      ∀ c', Settled c' → c'.store = s → Q a c') :
    Operation.Orderly allowed (Operation.commit fence t) Q c := by
  refine ⟨hsettled, fun _ => hsettled, fun a s hrun => ?_⟩
  obtain ⟨hm, hQ⟩ := h a s hrun
  exact ⟨.inl hm, hQ _ (hsettled.move hm) rfl⟩

/-- A write whose outcome is known. -/
lemma commit_run {t : Transaction α} {fence : Option Fence} {a : α} {s : Store}
    (hsettled : Settled c) (hrun : t c.store = .ok (a, s)) (hm : Move allowed c.store s)
    (hQ : ∀ c', Settled c' → c'.store = s → Q a c') :
    Operation.Orderly allowed (Operation.commit fence t) Q c := by
  refine commit hsettled fun a' s' hrun' => ?_
  obtain ⟨rfl, rfl⟩ := Prod.mk.inj (Except.ok.inj (hrun.symm.trans hrun'))
  exact ⟨hm, hQ⟩

end Operation.Orderly

/-- An operation whose failure is looked at. -/
lemma Program.Orderly.attempt {op : Operation ε α} {Q : Except ε α → Chronicle → Prop}
    {c : Chronicle} (h : Operation.Orderly allowed op (fun a c' => Q (.ok a) c') c)
    (herror : ∀ e c', Settled c' → Q (.error e) c') :
    Program.Orderly allowed (ExceptT.run op) Q c :=
  Program.Safe.mono h fun r c' hr => match r with
    | .ok _ => hr
    | .error e => herror e c' hr

end StagedRollout
