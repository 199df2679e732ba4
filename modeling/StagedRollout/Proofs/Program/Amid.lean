/-
# Programs amid others

The store of a program is not its own.  Before each of its effects others may have changed it in any
way, and the clock may show anything.  What a program does then is a list of moments that need not
be linked: behind one moment and before the next the store belongs to the others
(`Program.Amid`).  A moment that a program may come to, whether or not it ends behind it, is within
its reach (`Program.Reaches`).

A program amid others is taken apart along its definition, effect by effect.  What all of its
writes do to a store, the moments do (`Program.Writes`); an operation that fails before or at its
only write changes nothing (`Operation.Refuses`).
-/
import StagedRollout.Proofs.Program.Safe
import StagedRollout.Proofs.Program.Terms

namespace StagedRollout

variable {α β ε ε' : Type} {l : List Moment} {x : Moment} {R : Store → Store → Prop}

/-- Moments in two parts lead through a store between them. -/
lemma Moment.linked_append {l₁ l₂ : List Moment} {s s' : Store} :
    Moment.Linked s (l₁ ++ l₂) s' ↔ ∃ s'', Moment.Linked s l₁ s'' ∧ Moment.Linked s'' l₂ s' := by
  induction l₁ generalizing s with
  | nil => exact ⟨fun h => ⟨s, rfl, h⟩, fun ⟨_, h, h'⟩ => h ▸ h'⟩
  | cons x rest ih =>
    constructor
    · rintro ⟨hx, hrest⟩
      obtain ⟨s'', h, h'⟩ := ih.1 hrest
      exact ⟨s'', ⟨hx, h⟩, h'⟩
    · rintro ⟨s'', ⟨hx, h⟩, h'⟩
      exact ⟨hx, ih.2 ⟨s'', h, h'⟩⟩

/-! ## Effects and programs -/

/-- The effect is answered in one store and leaves another one.  What becomes of the store while a
device is told about an action is the doing of others. -/
def Effect.Happens : Effect β → β → Store → Store → Prop
  | clock, _, s, s' => s' = s
  | look view, b, s, s' => b = view s ∧ s' = s
  | write fence t, b, s, s' => ∃ now, s.commit fence now t = (b, s')
  | dispatch _, _, s, s' => s' = s

/-- Telling a device about an action does not change the store. -/
def Surroundings.Passive (env : Surroundings) : Prop := ∀ a s, (env.deliver a s).2 = s

lemma Effect.happens_perform {env : Surroundings} (henv : env.Passive) (e : Effect β) (w : World) :
    e.Happens (e.perform env w).1 w.store (e.perform env w).2.store := by
  cases e with
  | clock => rfl
  | look view => exact ⟨rfl, rfl⟩
  | write fence t => cases fence with
    | none => exact ⟨0, rfl⟩
    | some f => exact ⟨env.clock w.readings, rfl⟩
  | dispatch a => exact henv a w.store

namespace Program

/-- The moments of a program whose store others may change before every effect, and its value. -/
def Amid : Program α → List Moment → α → Prop
  | done a, l, b => l = [] ∧ b = a
  | step e next, l, b => ∃ c s s' rest, e.Happens c s s' ∧ l = ⟨e.message?, s, s'⟩ :: rest ∧
      (next c).Amid rest b

/-- A moment that a program may come to while others change the store. -/
def Reaches : Program α → Moment → Prop
  | done _, _ => False
  | step e next, x => ∃ c s s', e.Happens c s s' ∧
      (x = ⟨e.message?, s, s'⟩ ∨ (next c).Reaches x)

/-- A run in passive surroundings is one of a program amid others that do nothing. -/
theorem amid_moments {env : Surroundings} (henv : env.Passive) (p : Program α) (w : World) :
    p.Amid (p.moments env w) (p.run env w).1 := by
  induction p generalizing w with
  | done a => exact ⟨rfl, rfl⟩
  | step e next ih => exact ⟨_, _, _, _, e.happens_perform henv w, rfl, ih _ _⟩

lemma Amid.reaches {p : Program α} {a : α} (h : p.Amid l a) : ∀ x ∈ l, p.Reaches x := by
  induction p generalizing l with
  | done b =>
    obtain ⟨rfl, -⟩ := h
    exact nofun
  | step e next ih =>
    obtain ⟨c, s, s', rest, hhappens, rfl, hrest⟩ := h
    exact List.forall_mem_cons.2 ⟨⟨c, s, s', hhappens, .inl rfl⟩,
      fun x hx => ⟨c, s, s', hhappens, .inr (ih c hrest x hx)⟩⟩

/-- A program that is cut off comes to no other moments. -/
lemma Reaches.of_cut {p : Program α} {limit : Nat} (h : (p.cut limit).Reaches x) :
    p.Reaches x := by
  induction p generalizing limit with
  | done a => exact h
  | step e next ih =>
    rw [cut.eq_def] at h
    dsimp only at h
    split at h
    · cases limit with
      | zero => exact h.elim
      | succ limit =>
        obtain ⟨c, s, s', hhappens, hx⟩ := h
        exact ⟨c, s, s', hhappens, hx.imp id (ih c)⟩
    · obtain ⟨c, s, s', hhappens, hx⟩ := h
      exact ⟨c, s, s', hhappens, hx.imp id (ih c)⟩

lemma amid_bind {p : Program α} {f : α → Program β} {b : β} (h : (p >>= f).Amid l b) :
    ∃ l₁ a l₂, l = l₁ ++ l₂ ∧ p.Amid l₁ a ∧ (f a).Amid l₂ b := by
  induction p generalizing l with
  | done a => exact ⟨[], a, l, rfl, ⟨rfl, rfl⟩, h⟩
  | step e next ih =>
    obtain ⟨c, s, s', rest, hhappens, rfl, hrest⟩ := h
    obtain ⟨l₁, a, l₂, rfl, hp, hf⟩ := ih c hrest
    exact ⟨_ :: l₁, a, l₂, rfl, ⟨c, s, s', l₁, hhappens, rfl, hp⟩, hf⟩

end Program

/-! ### What writes do -/

/-- What a write changes is of this kind. -/
def Effect.Writes (R : Store → Store → Prop) : Effect β → Prop
  | write _ t => ∀ s a s', t s = .ok (a, s') → R s s'
  | _ => True

/-- What the writes of a program change is of this kind, in whatever store they are made. -/
def Program.Writes (R : Store → Store → Prop) : Program α → Prop
  | .done _ => True
  | .step e next => e.Writes R ∧ ∀ b, (next b).Writes R

namespace Program.Writes

lemma bind {p : Program α} {f : α → Program β} (h : p.Writes R) (hf : ∀ a, (f a).Writes R) :
    (p >>= f).Writes R := by
  induction p with
  | done a => exact hf a
  | step e next ih => exact ⟨h.1, fun b => ih b (h.2 b)⟩

lemma mono {R' : Store → Store → Prop} {p : Program α} (h : p.Writes R)
    (hR : ∀ s s', R s s' → R' s s') : p.Writes R' := by
  induction p with
  | done a => trivial
  | step e next ih =>
    refine ⟨?_, fun b => ih b (h.2 b)⟩
    cases e with
    | write fence t => exact fun s a s' hrun => hR s s' (h.1 s a s' hrun)
    | clock | look | dispatch => trivial

/-- A program that only looks has no writes. -/
lemma of_reads {p : Program α} (h : p.Reads) : p.Writes R := by
  induction p with
  | done a => trivial
  | step e next ih =>
    refine ⟨?_, fun b => ih b (h.2 b)⟩
    cases e with
    | write fence t => exact h.1.elim
    | clock | look | dispatch => trivial

/-- **Nothing changes at a moment but by a write that is done.** -/
theorem reaches {p : Program α} (h : p.Writes R) (hx : p.Reaches x) :
    x.after = x.before ∨ R x.before x.after := by
  induction p with
  | done a => exact hx.elim
  | step e next ih =>
    obtain ⟨c, s, s', hhappens, rfl | hx⟩ := hx
    · cases e with
      | clock => exact .inl hhappens
      | look view => exact .inl hhappens.2
      | dispatch a => exact .inl hhappens
      | write fence t =>
        obtain ⟨now, hcommit⟩ := hhappens
        -- a write that is refused leaves the store as it was
        rcases s.commit_cases fence now t with ⟨e, heq⟩ | ⟨a, s₁, hrun, heq⟩
        · exact .inl (Prod.mk.inj (hcommit.symm.trans heq)).2
        · exact .inr ((Prod.mk.inj (hcommit.symm.trans heq)).2 ▸ h.1 _ _ _ hrun)
    · exact ih c (h.2 c) hx

end Program.Writes

/-- A program that only looks changes nothing. -/
lemma Program.Reads.still {p : Program α} {a : α} (h : p.Reads) (hl : p.Amid l a) :
    ∀ x ∈ l, x.after = x.before := fun x hx =>
  ((Program.Writes.of_reads (R := fun _ _ => False) h).reaches (hl.reaches x hx)).elim id False.elim

/-! ## Operations -/

namespace Operation

/-- The moments of an operation amid others, and its value or error. -/
def Amid (op : Operation ε α) (l : List Moment) (r : Except ε α) : Prop :=
  Program.Amid (ExceptT.run op) l r

lemma amid_pure {a : α} {r : Except ε α} (h : Amid (pure a : Operation ε α) l r) :
    l = [] ∧ r = .ok a := h

lemma amid_throw {e : ε} {r : Except ε α} (h : Amid (throw e : Operation ε α) l r) :
    l = [] ∧ r = .error e := h

lemma amid_ofExcept {r r' : Except ε α} (h : Amid (ofExcept r) l r') : l = [] ∧ r' = r := h

/-- The first part fails, or the second one goes on with its value. -/
lemma amid_bind {op : Operation ε α} {f : α → Operation ε β} {r : Except ε β}
    (h : Amid (op >>= f) l r) :
    (∃ e, Amid op l (.error e) ∧ r = .error e) ∨
      ∃ l₁ a l₂, l = l₁ ++ l₂ ∧ Amid op l₁ (.ok a) ∧ Amid (f a) l₂ r := by
  obtain ⟨l₁, r₁, l₂, rfl, hop, hrest⟩ := Program.amid_bind h
  cases r₁ with
  | ok a => exact .inr ⟨l₁, a, l₂, rfl, hop, hrest⟩
  | error e =>
    obtain ⟨rfl, rfl⟩ : l₂ = [] ∧ r = .error e := hrest
    exact .inl ⟨e, (List.append_nil l₁).symm ▸ hop, rfl⟩

lemma amid_mapError {op : Operation ε α} {f : ε → ε'} {r : Except ε' α}
    (h : Amid (mapError f op) l r) : ∃ r', Amid op l r' ∧ r = r'.mapError f := by
  obtain ⟨l₁, r', l₂, rfl, hop, hrest⟩ := Program.amid_bind h
  obtain ⟨rfl, rfl⟩ : l₂ = [] ∧ r = r'.mapError f := hrest
  exact ⟨r', (List.append_nil l₁).symm ▸ hop, rfl⟩

/-- Behind an operation whose error is caught the rest goes on in any case. -/
lemma amid_attempt_bind {op : Operation ε α} {f : Except ε α → Operation ε' β} {r : Except ε' β}
    (h : Amid (ExceptT.lift (ExceptT.run op) >>= f) l r) :
    ∃ l₁ result l₂, l = l₁ ++ l₂ ∧ Amid op l₁ result ∧ Amid (f result) l₂ r := by
  obtain ⟨l₁, r₁, l₂, rfl, hlift, hrest⟩ := Program.amid_bind h
  obtain ⟨l₃, result, l₄, rfl, hop, hend⟩ := Program.amid_bind hlift
  obtain ⟨rfl, rfl⟩ : l₄ = [] ∧ r₁ = .ok result := hend
  exact ⟨l₃, result, l₂, by rw [List.append_nil], hop, hrest⟩

/-- Behind a reading of the clock the rest goes on. -/
lemma amid_now_bind {f : Nat → Operation ε α} {r : Except ε α}
    (h : Amid (now >>= f) l r) :
    ∃ x n rest, l = x :: rest ∧ x.after = x.before ∧ Amid (f n) rest r := by
  obtain ⟨n, s, s', rest, hstill, rfl, hrest⟩ := h
  exact ⟨_, n, rest, rfl, hstill, hrest⟩

/-- A write is one moment. -/
lemma amid_commit {fence : Option Fence} {t : Transaction α} {r : Except StoreError α}
    (h : Amid (commit fence t) l r) :
    ∃ x now, l = [x] ∧ x.before.commit fence now t = (r, x.after) := by
  obtain ⟨b, s, s', rest, ⟨now, hcommit⟩, rfl, rfl, rfl⟩ := h
  exact ⟨_, now, rfl, hcommit⟩

/-! ### What the writes of an operation do -/

/-- What the writes of an operation change is of this kind, in whatever store they are made. -/
def Writes (R : Store → Store → Prop) (op : Operation ε α) : Prop :=
  Program.Writes R (ExceptT.run op)

namespace Writes

lemma of_reads {op : Operation ε α} (h : Reads op) : Writes R op := Program.Writes.of_reads h

lemma pure (a : α) : Writes R (pure a : Operation ε α) := trivial

lemma throw (e : ε) : Writes R (throw e : Operation ε α) := trivial

lemma ofExcept (r : Except ε α) : Writes R (ofExcept r) := trivial

lemma now : Writes R (now : Operation ε Nat) := ⟨trivial, fun _ => trivial⟩

lemma nowSeconds : Writes R (nowSeconds : Operation ε Nat) := ⟨trivial, fun _ => trivial⟩

lemma read (view : Store → Except StoreError α) : Writes R (read view) :=
  ⟨trivial, fun _ => trivial⟩

lemma commit (fence : Option Fence) {t : Transaction α}
    (h : ∀ s a s', t s = .ok (a, s') → R s s') : Writes R (commit fence t) :=
  ⟨h, fun _ => trivial⟩

lemma bind {op : Operation ε α} {f : α → Operation ε β} (h : Writes R op)
    (hf : ∀ a, Writes R (f a)) : Writes R (op >>= f) :=
  Program.Writes.bind h fun r => match r with
    | .ok a => hf a
    | .error _ => trivial

lemma mapError {op : Operation ε α} {f : ε → ε'} (h : Writes R op) : Writes R (mapError f op) :=
  Program.Writes.bind h fun _ => trivial

/-- A program among operations. -/
lemma lift {p : Program α} (h : p.Writes R) : Writes R (ExceptT.lift p : Operation ε α) :=
  Program.Writes.bind h fun _ => trivial

/-- An operation whose error is caught. -/
lemma attempt {op : Operation ε α} (h : Writes R op) :
    Writes R (ExceptT.lift (ExceptT.run op) : Operation ε' (Except ε α)) := lift h

end Writes

/-! ### Operations that fail without a trace -/

/-- Where the operation fails, it has changed nothing. -/
def Refuses (op : Operation ε α) : Prop :=
  ∀ l e, Amid op l (.error e) → ∀ x ∈ l, x.after = x.before

namespace Refuses

lemma of_reads {op : Operation ε α} (h : Reads op) : Refuses op := fun _ _ hl => h.still hl

/-- A write that is refused changes nothing. -/
lemma commit (fence : Option Fence) (t : Transaction α) : Refuses (Operation.commit fence t) := by
  intro l e hl
  obtain ⟨x, now, rfl, hcommit⟩ := amid_commit hl
  exact List.forall_mem_singleton.2 (Store.commit_error hcommit)

lemma mapError {op : Operation ε α} {f : ε → ε'} (h : Refuses op) : Refuses (mapError f op) := by
  intro l e hl
  obtain ⟨r, hop, hr⟩ := amid_mapError hl
  cases r with
  | ok a => cases hr
  | error e' => exact h l e' hop

/-- Something is looked at first. -/
lemma bind_of_reads {op : Operation ε α} {f : α → Operation ε β} (h : Reads op)
    (hf : ∀ a, Refuses (f a)) : Refuses (op >>= f) := by
  intro l e hl
  rcases amid_bind hl with ⟨e', hop, -⟩ | ⟨l₁, a, l₂, rfl, hop, hrest⟩
  · exact h.still hop
  · exact List.forall_mem_append.2 ⟨h.still hop, hf a l₂ e hrest⟩

/-- Nothing can fail behind the operation. -/
lemma bind_pure {op : Operation ε α} (h : Refuses op) (f : α → β) :
    Refuses (op >>= fun a => pure (f a)) := by
  intro l e hl
  rcases amid_bind hl with ⟨e', hop, -⟩ | ⟨l₁, a, l₂, rfl, hop, hrest⟩
  · exact h l e' hop
  · cases (amid_pure hrest).2

end Refuses

/-! ### How operations fail -/

/-- Where the operation fails, its error is one of these. -/
def Fails (P : ε → Prop) (op : Operation ε α) : Prop := ∀ l e, Amid op l (.error e) → P e

namespace Fails

variable {P : ε → Prop}

lemma pure (a : α) : Fails P (pure a : Operation ε α) := fun _ _ hl => by cases (amid_pure hl).2

lemma throw {e : ε} (h : P e) : Fails P (throw e : Operation ε α) := fun _ _ hl => by
  cases (amid_throw hl).2
  exact h

lemma ofExcept {r : Except ε α} (h : ∀ e, r = .error e → P e) : Fails P (ofExcept r) :=
  fun _ e hl => h e (amid_ofExcept hl).2.symm

lemma nowSeconds : Fails P (nowSeconds : Operation ε Nat) := by
  rintro l e ⟨n, s, s', rest, -, -, -, h⟩
  cases h

lemma mapError {P : ε' → Prop} {f : ε → ε'} (h : ∀ e, P (f e)) (op : Operation ε α) :
    Fails P (mapError f op) := by
  intro l e hl
  obtain ⟨r, -, hr⟩ := amid_mapError hl
  cases r with
  | ok a => cases hr
  | error e' => exact Except.error.inj hr ▸ h e'

lemma bind {op : Operation ε α} {f : α → Operation ε β} (h : Fails P op)
    (hf : ∀ a, Fails P (f a)) : Fails P (op >>= f) := by
  intro l e hl
  rcases amid_bind hl with ⟨e', hop, he⟩ | ⟨l₁, a, l₂, rfl, hop, hrest⟩
  · exact Except.error.inj he ▸ h l e' hop
  · exact hf a l₂ e hrest

end Fails

end Operation

end StagedRollout
