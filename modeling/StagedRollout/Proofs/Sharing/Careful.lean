/-
# Working beside others

Several programs work on one rollout, and between any two effects of one of them the others may do
something.  What they may do (`Meanwhile`) is stated for one owner of leases: where its name stands
on the rollout's lease, its name stood there before and the rollout's row is the same, and no group
is removed.

A program is careful (`Program.Careful`) if, whatever happens meanwhile, it writes the rollout's row
only where it knows the row that stands there, takes nothing back of what devices have reported, and
does to other owners only what they have to expect.
-/
import StagedRollout.Proofs.Lease.Spared
import StagedRollout.Proofs.Program.Calm
import StagedRollout.Proofs.Program.Terms
import StagedRollout.Proofs.Store.Balanced

namespace StagedRollout

open Store

variable {α β ε ε' : Type} {id : RolloutId} {owner : String} {stops : Prop} {s s' s'' : Store}

/-! ## The row that is known -/

/-- What a program knows of the row of a rollout: what the last look at it showed or the last write
of it left.  Nothing is known before the first one. -/
abbrev Known := Option (Except StoreError (Option Rollout))

/-- The view shows the row of the rollout. -/
def ShowsRow (id : RolloutId) (view : Store → α) : Prop :=
  ∃ show_ : α → Except StoreError (Option Rollout), ∀ s, show_ (view s) = Table.read s.rollouts id

/-- The transaction may change the row of the rollout. -/
def Transaction.WritesRow (id : RolloutId) (t : Transaction α) : Prop :=
  ∃ s a s', t s = .ok (a, s') ∧ Table.read s'.rollouts id ≠ Table.read s.rollouts id

/-- A transaction on other tables is none on the row. -/
lemma Transaction.Calm.not_writesRow {t : Transaction α} (ht : t.Calm) : ¬ t.WritesRow id := by
  rintro ⟨s, a, s', hrun, hne⟩
  exact hne (by rw [(ht s a s' hrun).rollouts])

/-- What is known behind an effect that shows or leaves a row, or that does not. -/
inductive Noticed (row : Except StoreError (Option Rollout)) (touches : Prop) :
    Known → Known → Prop
  | row (h : touches) (known : Known) : Noticed row touches known (some row)
  | same (h : ¬ touches) (known : Known) : Noticed row touches known known

/-- The fence names a holding of the rollout's lease by the owner. -/
structure Fence.IsOf (f : Fence) (id : RolloutId) (owner : String) : Prop where
  key_eq : f.key = Lease.rolloutKey id
  owner_eq : f.owner = owner

/-- The owner's name stands on a lease, whether or not the lease has run out. -/
def Store.Bears (s : Store) (key owner : String) : Prop :=
  ∃ l, s.lease? key = some l ∧ l.owner = owner

/-- Where its name stands on the rollout's lease, the owner knows the rollout's row. -/
def Knows (id : RolloutId) (owner : String) (known : Known) (s : Store) : Prop :=
  s.Bears (Lease.rolloutKey id) owner → known = some (Table.read s.rollouts id)

/-! ## What others do -/

/-- What may happen to the store while an owner of leases does nothing. -/
structure Meanwhile (id : RolloutId) (owner : String) (s s' : Store) : Prop where
  bears : s'.Bears (Lease.rolloutKey id) owner → s.Bears (Lease.rolloutKey id) owner
  row : s'.Bears (Lease.rolloutKey id) owner →
    Table.read s'.rollouts id = Table.read s.rollouts id
  groups : ∀ {key g}, s.group? key = some g → ∃ g', s'.group? key = some g'

/-- Groups that are stored, though perhaps in another state. -/
def Store.Has (s : Store) (groups : List RolloutGroup) : Prop :=
  ∀ g ∈ groups, ∃ old, s.group? g.id = some old

namespace Meanwhile

lemma refl (s : Store) : Meanwhile id owner s s :=
  ⟨fun hb => hb, fun _ => rfl, fun hg => ⟨_, hg⟩⟩

lemma trans (h : Meanwhile id owner s s') (h' : Meanwhile id owner s' s'') :
    Meanwhile id owner s s'' where
  bears hb := h.bears (h'.bears hb)
  row hb := (h'.row hb).trans (h.row (h'.bears hb))
  groups hg := by
    obtain ⟨g', hg'⟩ := h.groups hg
    exact h'.groups hg'

lemma knows {known : Known} (h : Meanwhile id owner s s') (hk : Knows id owner known s) :
    Knows id owner known s' := fun hb => by
  rw [h.row hb]
  exact hk (h.bears hb)

lemma has {groups : List RolloutGroup} (h : Meanwhile id owner s s') (hg : s.Has groups) :
    s'.Has groups := fun g hmem => by
  obtain ⟨old, hold⟩ := hg g hmem
  exact h.groups hold

end Meanwhile

lemma Knows.noticed {known known' : Known} {touches : Prop} (h : Knows id owner known s)
    (hn : Noticed (Table.read s.rollouts id) touches known known') : Knows id owner known' s := by
  cases hn with
  | row htouches => exact fun _ => rfl
  | same hnot => exact h

/-- What a write of an owner does to the others: it takes nothing back of what devices have
reported, puts no name on the rollout's lease but its own, and changes the rollout's row only where
its own name stands on the lease. -/
structure Fair (id : RolloutId) (owner : String) (stops : Prop) (s s' : Store) : Prop where
  respects : s.Respects stops s'
  others : ∀ other, other ≠ owner → Meanwhile id other s s'

/-! ## Careful programs -/

/-- What has to be true of an effect, given what is known of the row and the store at the last
effect before it. -/
def Effect.Careful (id : RolloutId) (owner : String) (stops : Prop) :
    Effect β → (β → Known → Store → Prop) → Known → Store → Prop
  | clock, Q, known, s => ∀ now, Q now known s
  | look view, Q, known, s => ∀ s' known', Meanwhile id owner s s' → s'.Balanced →
      Noticed (Table.read s'.rollouts id) (ShowsRow id view) known known' → Q (view s') known' s'
  | write fence t, Q, known, s => ∀ s' now, Meanwhile id owner s s' → s'.Balanced →
      (∀ e, s'.commit fence now t = (.error e, s') → Q (.error e) known s') ∧
      ∀ a s'', s'.commit fence now t = (.ok a, s'') →
        (t.WritesRow id → known = some (Table.read s'.rollouts id)) ∧
        Fair id owner stops s' s'' ∧
        ∀ known', Noticed (Table.read s''.rollouts id) (t.WritesRow id) known known' →
          Q (.ok a) known' s''
  | dispatch _, Q, known, s => ∀ answer, Q answer known s

lemma Effect.Careful.mono {e : Effect β} {Q Q' : β → Known → Store → Prop} {known : Known}
    (h : e.Careful id owner stops Q known s) (hQ : ∀ b known' s', Q b known' s' → Q' b known' s') :
    e.Careful id owner stops Q' known s := by
  cases e with
  | clock => exact fun now => hQ _ _ _ (h now)
  | look view => exact fun s' known' hs hb hn => hQ _ _ _ (h s' known' hs hb hn)
  | write fence t =>
    intro s' now hs hb
    obtain ⟨herror, hok⟩ := h s' now hs hb
    refine ⟨fun e he => hQ _ _ _ (herror e he), fun a s'' ha => ?_⟩
    obtain ⟨hknown, hfair, hrest⟩ := hok a s'' ha
    exact ⟨hknown, hfair, fun known' hn => hQ _ _ _ (hrest known' hn)⟩
  | dispatch a => exact fun answer => hQ _ _ _ (h answer)

/-- What happens meanwhile may happen before the first effect. -/
lemma Effect.Careful.meanwhile {e : Effect β} {Q : β → Known → Store → Prop} {known : Known}
    (hQ : ∀ b known' s' s'', Meanwhile id owner s' s'' → Q b known' s' → Q b known' s'')
    (h : e.Careful id owner stops Q known s) (hs : Meanwhile id owner s s') :
    e.Careful id owner stops Q known s' := by
  cases e with
  | clock => exact fun now => hQ _ _ _ _ hs (h now)
  | look view => exact fun s'' known' hs' hb hn => h s'' known' (hs.trans hs') hb hn
  | write fence t => exact fun s'' now hs' hb => h s'' now (hs.trans hs') hb
  | dispatch a => exact fun answer => hQ _ _ _ _ hs (h answer)

/-- Groups that were stored before an effect are stored behind it. -/
lemma Effect.Careful.has {e : Effect β} {Q : β → Known → Store → Prop} {known : Known}
    {groups : List RolloutGroup} (h : e.Careful id owner stops Q known s) (hg : s.Has groups) :
    e.Careful id owner stops (fun b known' s' => Q b known' s' ∧ s'.Has groups) known s := by
  cases e with
  | clock => exact fun now => ⟨h now, hg⟩
  | look view => exact fun s' known' hs hb hn => ⟨h s' known' hs hb hn, hs.has hg⟩
  | write fence t =>
    intro s' now hs hb
    obtain ⟨herror, hok⟩ := h s' now hs hb
    refine ⟨fun e he => ⟨herror e he, hs.has hg⟩, fun a s'' ha => ?_⟩
    obtain ⟨hknown, hfair, hrest⟩ := hok a s'' ha
    refine ⟨hknown, hfair, fun known' hn => ⟨hrest known' hn, fun g hmem => ?_⟩⟩
    obtain ⟨old, hold⟩ := hs.has hg g hmem
    exact hfair.respects.groups hold
  | dispatch a => exact fun answer => ⟨h answer, hg⟩

namespace Program

/-- Every effect is careful, and the end is as promised. -/
def Careful (id : RolloutId) (owner : String) (stops : Prop) :
    Program α → (α → Known → Store → Prop) → Known → Store → Prop
  | done a, Q, known, s => Q a known s
  | .step e next, Q, known, s =>
    e.Careful id owner stops
      (fun b known' s' => (next b).Careful id owner stops Q known' s') known s

namespace Careful

variable {p : Program α} {Q Q' : α → Known → Store → Prop} {known : Known}

lemma mono (h : p.Careful id owner stops Q known s)
    (hQ : ∀ a known' s', Q a known' s' → Q' a known' s') :
    p.Careful id owner stops Q' known s := by
  induction p generalizing known s with
  | done a => exact hQ a known s h
  | step e next ih => exact Effect.Careful.mono h fun b known' s' hb => ih b hb

lemma bind {g : α → Program β} {Q : β → Known → Store → Prop}
    (h : p.Careful id owner stops (fun a => (g a).Careful id owner stops Q) known s) :
    (p >>= g).Careful id owner stops Q known s := by
  induction p generalizing known s with
  | done a => exact h
  | step e next ih => exact Effect.Careful.mono h fun b known' s' hb => ih b hb

lemma meanwhile (hQ : ∀ a known' s' s'', Meanwhile id owner s' s'' → Q a known' s' → Q a known' s'')
    (h : p.Careful id owner stops Q known s) (hs : Meanwhile id owner s s') :
    p.Careful id owner stops Q known s' := by
  induction p generalizing known s s' with
  | done a => exact hQ a known s s' hs h
  | step e next ih =>
    exact Effect.Careful.meanwhile (fun b known' s₁ s₂ hs' hb => ih b hb hs') h hs

lemma has {groups : List RolloutGroup} (h : p.Careful id owner stops Q known s)
    (hg : s.Has groups) :
    p.Careful id owner stops (fun a known' s' => Q a known' s' ∧ s'.Has groups) known s := by
  induction p generalizing known s with
  | done a => exact ⟨h, hg⟩
  | step e next ih =>
    exact Effect.Careful.mono (Effect.Careful.has h hg) fun b known' s' hb => ih b hb.1 hb.2

/-- A program that only looks loses none of what is known. -/
lemma of_reads (hp : p.Reads) (h : Knows id owner known s)
    (hQ : ∀ a known' s', Knows id owner known' s' → Meanwhile id owner s s' → Q a known' s') :
    p.Careful id owner stops Q known s := by
  induction p generalizing known s with
  | done a => exact hQ a known s h (.refl s)
  | step e next ih =>
    cases e with
    | clock => exact fun now => ih now (hp.2 now) h hQ
    | look view =>
      intro s' known' hs hb hn
      exact ih _ (hp.2 _) ((hs.knows h).noticed hn) fun a known'' s'' hk hs' =>
        hQ a known'' s'' hk (hs.trans hs')
    | write fence t => exact hp.1.elim
    | dispatch a => exact hp.1.elim

end Careful

end Program

/-! ## Careful operations -/

/-- A careful operation, with a promise for its value and one for its error. -/
def Operation.Careful (id : RolloutId) (owner : String) (stops : Prop) (op : Operation ε α)
    (Q : α → Known → Store → Prop) (E : ε → Known → Store → Prop) (known : Known) (s : Store) :
    Prop :=
  Program.Careful id owner stops (ExceptT.run op) (fun r known' s' => match r with
    | .ok a => Q a known' s'
    | .error e => E e known' s') known s

namespace Operation.Careful

variable {op : Operation ε α} {Q Q' : α → Known → Store → Prop} {E E' : ε → Known → Store → Prop}
  {known : Known}

lemma mono (h : Operation.Careful id owner stops op Q E known s)
    (hQ : ∀ a known' s', Q a known' s' → Q' a known' s')
    (hE : ∀ e known' s', E e known' s' → E' e known' s') :
    Operation.Careful id owner stops op Q' E' known s :=
  Program.Careful.mono h fun r known' s' hr => match r with
    | .ok a => hQ a known' s' hr
    | .error e => hE e known' s' hr

lemma bind {g : α → Operation ε β} {Q : β → Known → Store → Prop}
    (h : Operation.Careful id owner stops op
      (fun a => Operation.Careful id owner stops (g a) Q E) E known s) :
    Operation.Careful id owner stops (op >>= g) Q E known s :=
  Program.Careful.bind (Program.Careful.mono h fun r _ _ hr => match r with
    | .ok _ => hr
    | .error _ => hr)

lemma pure {a : α} (h : Q a known s) :
    Operation.Careful id owner stops (pure a : Operation ε α) Q E known s := h

lemma throw {e : ε} (h : E e known s) :
    Operation.Careful id owner stops (throw e : Operation ε α) Q E known s := h

lemma ofExcept {r : Except ε α} (hok : ∀ a, r = .ok a → Q a known s)
    (herror : ∀ e, r = .error e → E e known s) :
    Operation.Careful id owner stops (Operation.ofExcept r) Q E known s := by
  cases r with
  | ok a => exact hok a rfl
  | error e => exact herror e rfl

lemma mapError {map : ε → ε'} {E : ε' → Known → Store → Prop}
    (h : Operation.Careful id owner stops op Q (fun e => E (map e)) known s) :
    Operation.Careful id owner stops (Operation.mapError map op) Q E known s :=
  Program.Careful.bind (Program.Careful.mono h fun r _ _ hr => match r with
    | .ok _ => hr
    | .error _ => hr)

/-- A program among operations. -/
lemma lift {p : Program α} (h : p.Careful id owner stops Q known s) :
    Operation.Careful id owner stops (ExceptT.lift p : Operation ε α) Q E known s :=
  Program.Careful.bind (Program.Careful.mono h fun _ _ _ hr => hr)

/-- An operation whose error is caught. -/
lemma attempt {Q : Except ε α → Known → Store → Prop} {E : ε' → Known → Store → Prop}
    (h : Operation.Careful id owner stops op (fun a => Q (.ok a)) (fun e => Q (.error e)) known s) :
    Operation.Careful id owner stops
      (ExceptT.lift (ExceptT.run op) : Operation ε' (Except ε α)) Q E known s :=
  lift (Program.Careful.mono h fun r _ _ hr => match r with
    | .ok _ => hr
    | .error _ => hr)

lemma now {Q : Nat → Known → Store → Prop} (h : ∀ n, Q n known s) :
    Operation.Careful id owner stops (Operation.now : Operation ε Nat) Q E known s := lift h

lemma nowSeconds {Q : Nat → Known → Store → Prop} (h : ∀ n, Q n known s) :
    Operation.Careful id owner stops (Operation.nowSeconds : Operation ε Nat) Q E known s :=
  lift fun n => h (n / 1000)

/-- A look at the row of the rollout. -/
lemma readRow {Q : Option Rollout → Known → Store → Prop} {E : StoreError → Known → Store → Prop}
    (hQ : ∀ found known' s', Knows id owner known' s' → Q found known' s')
    (hE : ∀ e known' s', E e known' s') :
    Operation.Careful id owner stops (Operation.read fun s => Table.read s.rollouts id) Q E
      known s := by
  intro s' known' hs hb hn
  have hknows : Knows id owner known' s' := by
    cases hn with
    | row htouches => exact fun _ => rfl
    | same hnot => exact absurd ⟨fun row => row, fun _ => rfl⟩ hnot
  dsimp only
  cases Table.read s'.rollouts id with
  | ok found => exact hQ found known' s' hknows
  | error e => exact hE e known' s'

/-- Any other look. -/
lemma read {view : Store → Except StoreError α} {E : StoreError → Known → Store → Prop}
    (h : Knows id owner known s)
    (hQ : ∀ a known' s', Meanwhile id owner s s' → s'.Balanced → Knows id owner known' s' →
      view s' = .ok a → Q a known' s')
    (hE : ∀ e known' s', E e known' s') :
    Operation.Careful id owner stops (Operation.read view) Q E known s := by
  intro s' known' hs hb hn
  cases hview : view s' with
  | ok a => exact hQ a known' s' hs hb ((hs.knows h).noticed hn) hview
  | error e => exact hE e known' s'

/-- A write behind the fence of a holding.  It goes on only where the owner's name stands on the
lease, and there the row is known. -/
lemma commit {t : Transaction α} {f : Fence} {E : StoreError → Known → Store → Prop}
    (hf : f.IsOf id owner) (ht : t.KeepsBeside)
    (h : Knows id owner known s)
    (hrun : ∀ a s' s'', Meanwhile id owner s s' → s'.Balanced → t s' = .ok (a, s'') →
      s'.Respects stops s'' ∧ ∀ known', Knows id owner known' s'' → Q a known' s'')
    (hE : ∀ e known' s', E e known' s') :
    Operation.Careful id owner stops (Operation.commit (some f) t) Q E known s := by
  intro s' now hs hb
  refine ⟨fun e _ => hE e known s', fun a s'' hcommit => ?_⟩
  rcases s'.commit_outcome (some f) now t with
    ⟨e, -, heq⟩ | ⟨hcheck, ⟨e, -, heq⟩ | ⟨a', s₁, hrun', heq⟩⟩
  · cases hcommit.symm.trans heq
  · cases hcommit.symm.trans heq
  obtain ⟨hanswer, rfl⟩ := Prod.mk.inj (hcommit.symm.trans heq)
  obtain rfl := Except.ok.inj hanswer
  obtain ⟨l, hl, hname, -⟩ := Fence.names_of_check hcheck
  rw [hf.key_eq] at hl
  have hl' : s''.lease? (Lease.rolloutKey id) = some l := by
    rw [lease?, Table.intact?, (ht s' a s'' hrun').leases, ← Table.intact?, ← lease?]
    exact hl
  have hknown : known = some (Table.read s'.rollouts id) :=
    hs.knows h ⟨l, hl, hname.trans hf.owner_eq⟩
  obtain ⟨hrespects, hQ⟩ := hrun a s' s'' hs hb hrun'
  -- nobody else's name stands on the lease
  have hothers : ∀ other, other ≠ owner → ¬ s''.Bears (Lease.rolloutKey id) other := by
    rintro other hne ⟨l', hl'', rfl⟩
    obtain rfl := Option.some.inj (hl'.symm.trans hl'')
    exact hne (hname.trans hf.owner_eq)
  refine ⟨fun _ => hknown, ⟨hrespects, fun other hne => ⟨fun hb => absurd hb (hothers other hne),
    fun hb => absurd hb (hothers other hne), hrespects.groups⟩⟩, fun known' hn => hQ known' ?_⟩
  cases hn with
  | row hwrites => exact fun _ => rfl
  | same hnot =>
    intro _
    by_contra hne
    exact hnot ⟨s', a, s'', hrun', fun heq => hne (by rw [hknown, heq])⟩

/-- A transaction on leases that gives the rollout's lease to nobody but the owner. -/
lemma commit_lease {t : Transaction α} {fence : Option Fence}
    {E : StoreError → Known → Store → Prop}
    (ht : t.Calm)
    (hothers : ∀ s' a s'', t s' = .ok (a, s'') → ∀ other, other ≠ owner →
      s''.Bears (Lease.rolloutKey id) other → s'.Bears (Lease.rolloutKey id) other)
    (hQ : ∀ a s' s'', Meanwhile id owner s s' → t s' = .ok (a, s'') → Q a known s'')
    (hE : ∀ e s', Meanwhile id owner s s' → E e known s') :
    Operation.Careful id owner stops (Operation.commit fence t) Q E known s := by
  intro s' now hs hb
  refine ⟨fun e _ => hE e s' hs, fun a s'' hcommit => ?_⟩
  rcases s'.commit_outcome fence now t with ⟨e, -, heq⟩ | ⟨-, ⟨e, -, heq⟩ | ⟨a', s₁, hrun', heq⟩⟩
  · cases hcommit.symm.trans heq
  · cases hcommit.symm.trans heq
  obtain ⟨hanswer, rfl⟩ := Prod.mk.inj (hcommit.symm.trans heq)
  obtain rfl := Except.ok.inj hanswer
  have hsame := ht s' a s'' hrun'
  have hnot : ¬ t.WritesRow id := ht.not_writesRow
  refine ⟨fun hwrites => absurd hwrites hnot, ⟨.of_eq hb hsame.groups hsame.actions,
    fun other hne => ⟨hothers s' a s'' hrun' other hne, fun _ => by rw [hsame.rollouts],
      fun {key g} hg => ⟨g, by rw [group?, hsame.groups]; exact hg⟩⟩⟩, fun known' hn => ?_⟩
  cases hn with
  | row hwrites => exact absurd hwrites hnot
  | same _ => exact hQ a s' s'' hs hrun'

end Operation.Careful

end StagedRollout
