/-
# When tokens start again

A history is what activities did to a store, effect after effect, in whatever order they came and
wherever they were left behind.  As long as the row of a lease stays in the table, every new holding
of its key has a larger token than all leases before it.  Only a cleanup pass removes a row, when it
marks the rollout that the lease guarded as gone.  The next holding of the key has the token 1 again,
whatever was granted before (`Tokens`).

So a key and a token tell holdings apart between two removals only, and a fence from the time before
a removal lets writes through behind it once its owner has been granted the same token anew.
-/
import StagedRollout.Proofs.Lease.Activities

namespace StagedRollout

open Store Transaction

variable {key : String} {g : Lease} {s s' : Store} {l : List Moment}

/-! ## One write -/

lemma Store.lease?_of_missing (h : s.leases.find? key = none) : s.lease? key = none := by
  rw [lease?, Table.intact?, h]

namespace Store.Handles

lemma refl (s : Store) : s.Handles key s := .spared rfl

/-- The token never goes back. -/
lemma succeeds (h : s.Handles key s') : Succeeds key s s' := by
  cases h with
  | spared h => exact .of_find?_eq h
  | granted h => exact .of_acquired h
  | kept h => exact .of_upkept h

/-- A key without a row gets one only by a grant with the first token. -/
lemma of_missing (h : s.Handles key s') (hnone : s.leases.find? key = none) :
    s'.leases.find? key = none ∨ ∃ g, s'.lease? key = some g ∧ g.fencing = 1 := by
  have hlease := lease?_of_missing hnone
  cases h with
  | spared h => exact .inl (h.trans hnone)
  | granted h =>
    cases h with
    | first => exact .inr ⟨_, lease?_withLease_self _ _ _, rfl⟩
    | next hl | again hl => cases hlease.symm.trans hl
    | held => exact .inl hnone
  | kept h =>
    cases h with
    | kept hl => cases hlease.symm.trans hl
    | lost => exact .inl hnone

/-- A lease becomes the holding that a fence names only by a grant with another token than before. -/
lemma names {f : Fence} (h : s.Handles f.key s') (hcurrent : f.Current s') (hnot : ¬ f.Current s) :
    ∃ g, s'.lease? f.key = some g ∧ f.Names g ∧
      ∀ l, s.lease? f.key = some l → l.fencing ≠ g.fencing := by
  obtain ⟨g, hg, hnames⟩ := hcurrent
  refine ⟨g, hg, hnames, fun l hl htoken => hnot ?_⟩
  cases h with
  | spared h =>
    rw [lease?, Table.intact?, h] at hg
    exact ⟨g, hg, hnames⟩
  | granted h =>
    cases h with
    | first hnew => cases hnew.symm.trans (read_leases hl)
    | next hold =>
      obtain rfl := Option.some.inj (hold.symm.trans hl)
      obtain rfl := Option.some.inj ((lease?_withLease_self _ _ _).symm.trans hg)
      exact absurd htoken (Nat.lt_succ_self _).ne
    | again hold _ howner =>
      obtain rfl := Option.some.inj ((lease?_withLease_self _ _ _).symm.trans hg)
      exact ⟨_, hold, howner.trans hnames.1, hnames.2⟩
    | held => exact ⟨g, hg, hnames⟩
  | kept h =>
    cases h with
    | kept hold =>
      obtain rfl := Option.some.inj ((lease?_withLease_self _ _ _).symm.trans hg)
      exact ⟨_, hold, hnames⟩
    | lost => exact ⟨g, hg, hnames⟩

end Store.Handles

/-! ## Moments -/

namespace Moment

variable {m : Moment}

/-- An activity may come to the moment, whatever others do meanwhile. -/
def Made (m : Moment) : Prop := ∃ a : Activity, a.Stored ∧ a.program.Reaches m

/-- A cleanup pass may come to the moment. -/
def OfCleanup (m : Moment) : Prop := ∃ grace now, (Activity.cleanup grace now).program.Reaches m

/-- A holding of the key begins: the lease is granted to somebody who did not have it. -/
structure Begins (key : String) (g : Lease) (m : Moment) : Prop where
  stored : m.after.lease? key = some g
  new : ∀ l, m.before.lease? key = some l → l.fencing ≠ g.fencing

/-- A cleanup pass removes the row of the key's lease with the rollout that the lease guarded. -/
structure Removes (key : String) (m : Moment) : Prop where
  stored : m.before.leases.find? key ≠ none
  missing : m.after.leases.find? key = none
  guarded : ∃ id, key = Lease.rolloutKey id
  cleanup : m.OfCleanup

/-- A moment keeps the row of a lease, or a cleanup pass removes it. -/
lemma Made.cases (h : m.Made) (key : String) :
    m.before.Handles key m.after ∨
      m.after.leases.find? key = none ∧ (∃ id, key = Lease.rolloutKey id) ∧ m.OfCleanup := by
  obtain ⟨a, ha, hreach⟩ := h
  rcases a.handles key ha with hwrites | ⟨⟨grace, now, rfl⟩, hwrites⟩
  · exact .inl ((hwrites.reaches hreach).elim (fun h => h ▸ .refl _) fun h => h)
  · rcases hwrites.reaches hreach with hstill | hsame | ⟨hkey, hnone⟩
    · exact .inl (hstill ▸ .refl _)
    · exact .inl (.spared hsame)
    · exact .inr ⟨hnone, hkey, grace, now, hreach⟩

/-- A grant to an owner who does not have the lease begins a holding. -/
lemma begins_of_acquired {owner : String} {now ttl : Nat}
    (h : Acquired key owner now ttl m.before (.granted g) m.after)
    (hnot : ∀ l, m.before.lease? key = some l → l.isExpired now = false → l.owner ≠ owner) :
    m.Begins key g := by
  refine ⟨LeaseEvent.lease?_of_acquired h, fun l hl => ?_⟩
  generalize m.after = s' at h
  cases h with
  | first hnew => cases hnew.symm.trans (read_leases hl)
  | next hold =>
    obtain rfl := Option.some.inj (hold.symm.trans hl)
    exact (Nat.lt_succ_self _).ne
  | again hold hvalid howner => exact absurd howner (hnot _ hold hvalid)

/-- Where a holding begins, the row is not removed. -/
lemma Begins.handles (h : m.Begins key g) (hm : m.Made) : m.before.Handles key m.after := by
  refine (hm.cases key).resolve_right fun ⟨hnone, _⟩ => ?_
  cases h.stored.symm.trans (lease?_of_missing hnone)

/-- **Moments that lead on keep the token from going back**, but for a cleanup pass. -/
lemma Linked.succeeds (h : Linked s l s') (hmade : ∀ x ∈ l, x.Made) :
    Succeeds key s s' ∨ ∃ p ∈ l, p.Removes key := by
  induction l generalizing s with
  | nil => exact .inl (h ▸ .refl key s)
  | cons x rest ih =>
    obtain ⟨rfl, hrest⟩ := h
    obtain ⟨hx, hlater⟩ := List.forall_mem_cons.1 hmade
    rcases ih hrest hlater with hsucceeds | ⟨p, hp, hremoves⟩
    · rcases hx.cases key with hhandles | ⟨hnone, hkey, hcleanup⟩
      · exact .inl (hhandles.succeeds.trans hsucceeds)
      -- what was not there before cannot have been removed, and it promises nothing
      · by_cases hbefore : x.before.leases.find? key = none
        · refine .inl fun l hl => ?_
          cases hl.symm.trans (lease?_of_missing hbefore)
        · exact .inr ⟨x, List.mem_cons_self, hbefore, hnone, hkey, hcleanup⟩
    · exact .inr ⟨p, List.mem_cons_of_mem _ hp, hremoves⟩

/-- Without a new holding a key without a row has none. -/
lemma Linked.missing (h : Linked s l s') (hmade : ∀ x ∈ l, x.Made)
    (hnone : s.leases.find? key = none) (hno : ∀ x ∈ l, ∀ g, ¬ x.Begins key g) :
    s'.leases.find? key = none := by
  refine (h.invariant (J := fun s => s.leases.find? key = none) hnone fun x hx hbefore => ?_).2
  rcases (hmade x hx).cases key with hhandles | ⟨hafter, -⟩
  · refine (hhandles.of_missing hbefore).resolve_right fun ⟨g, hg, _⟩ => hno x hx g ⟨hg, ?_⟩
    intro l hl
    cases hl.symm.trans (lease?_of_missing hbefore)
  · exact hafter

/-- Without a new holding that a fence names, the lease does not become the one that it names. -/
lemma Linked.not_current {f : Fence} (h : Linked s l s') (hmade : ∀ x ∈ l, x.Made)
    (hnot : ¬ f.Current s) (hno : ∀ x ∈ l, ∀ g, x.Begins f.key g → ¬ f.Names g) :
    ¬ f.Current s' := by
  refine (h.invariant (J := fun s => ¬ f.Current s) hnot fun x hx hbefore hafter => ?_).2
  rcases (hmade x hx).cases f.key with hhandles | ⟨hnone, -⟩
  · obtain ⟨g, hg, hnames, hnew⟩ := hhandles.names hafter hbefore
    exact hno x hx g ⟨hg, hnew⟩ hnames
  · exact (Fence.Lost.of_missing hnone).not_current hafter

end Moment

/-! ## Histories -/

/-- What activities did to a store. -/
structure History (s : Store) (l : List Moment) (s' : Store) : Prop where
  linked : Moment.Linked s l s'
  made : ∀ m ∈ l, m.Made

lemma History.nil (s : Store) : History s [] s := ⟨rfl, nofun⟩

lemma History.append {s'' : Store} {l' : List Moment} (h : History s l s')
    (h' : History s' l' s'') : History s (l ++ l') s'' :=
  ⟨Moment.linked_append.2 ⟨s', h.linked, h'.linked⟩, List.forall_mem_append.2 ⟨h.made, h'.made⟩⟩

/-- What is so of the tokens of a key at the moments of a history. -/
structure Tokens (key : String) (l : List Moment) : Prop where
  /-- A grant to an owner who does not have the lease begins a new holding. -/
  granted : ∀ m ∈ l, ∀ owner now ttl g, Acquired key owner now ttl m.before (.granted g) m.after →
    (∀ held, m.before.lease? key = some held → held.isExpired now = false → held.owner ≠ owner) →
      m.Begins key g
  /-- A new holding has a larger token than every lease before it, unless the row was removed
  meanwhile. -/
  grow : ∀ l₁ m l₂ m' l₃ g g', l = l₁ ++ m :: (l₂ ++ m' :: l₃) → m.after.lease? key = some g →
    m'.Begins key g' → g.fencing < g'.fencing ∨ ∃ p ∈ l₂, p.Removes key
  /-- Where there is no row, the next holding has the first token. -/
  restart : ∀ l₁ p l₂ m l₃ g, l = l₁ ++ p :: (l₂ ++ m :: l₃) → p.after.leases.find? key = none →
    (∀ x ∈ l₂, ∀ g, ¬ x.Begins key g) → m.Begins key g → g.fencing = 1
  /-- Behind a moment without a row a fence lets nothing through but a holding that began since. -/
  reissued : ∀ l₁ p l₂ m l₃ (f : Fence) (now : Nat), l = l₁ ++ p :: (l₂ ++ m :: l₃) → f.key = key →
    p.after.leases.find? key = none → f.check now m.before = .ok () →
      ∃ x ∈ l₂, ∃ g, x.Begins key g ∧ f.Names g

namespace History

/-- The moments between two moments lead from one to the other. -/
lemma between {l₁ l₂ l₃ : List Moment} {m m' : Moment}
    (h : History s (l₁ ++ m :: (l₂ ++ m' :: l₃)) s') :
    Moment.Linked m.after l₂ m'.before ∧ (∀ x ∈ l₂, x.Made) ∧ m'.Made := by
  obtain ⟨s₁, -, -, hrest⟩ := Moment.linked_append.1 h.linked
  obtain ⟨s₂, hlinked, hm', -⟩ := Moment.linked_append.1 hrest
  refine ⟨hm' ▸ hlinked, fun x hx => h.made x ?_, h.made m' ?_⟩
  · simp [hx]
  · simp

/-- **Tokens grow as long as the lease's row is there**, and they start again where cleanup has
removed it. -/
theorem tokens (h : History s l s') (key : String) : Tokens key l where
  granted _ _ _ _ _ _ := Moment.begins_of_acquired
  grow := by
    rintro l₁ m l₂ m' l₃ g g' rfl hg hbegins
    obtain ⟨hlinked, hmade, hm'⟩ := h.between
    refine (hlinked.succeeds hmade).imp_left fun hsucceeds => ?_
    obtain ⟨held, hheld, hmore⟩ := hsucceeds g hg
    -- the token before the holding began is not behind the earlier one, and the grant changes it
    have hle : g.fencing ≤ held.fencing := hmore.elim le_of_lt fun h => h.1.ge
    obtain ⟨l', hl', hlast⟩ := (hbegins.handles hm').succeeds held hheld
    obtain rfl := Option.some.inj (hl'.symm.trans hbegins.stored)
    exact hle.trans_lt (hlast.resolve_right fun hsame => hbegins.new held hheld hsame.1.symm)
  restart := by
    rintro l₁ p l₂ m l₃ g rfl hnone hno hbegins
    obtain ⟨hlinked, hmade, hm⟩ := h.between
    rcases (hbegins.handles hm).of_missing (hlinked.missing hmade hnone hno) with
      hafter | ⟨g', hg', hfirst⟩
    · cases hbegins.stored.symm.trans (lease?_of_missing hafter)
    · obtain rfl := Option.some.inj (hg'.symm.trans hbegins.stored)
      exact hfirst
  reissued := by
    rintro l₁ p l₂ m l₃ f now rfl rfl hnone hcheck
    obtain ⟨hlinked, hmade, -⟩ := h.between
    by_contra hno
    refine hlinked.not_current hmade (Fence.Lost.of_missing hnone).not_current ?_
      (Fence.names_of_check hcheck)
    exact fun x hx g hbegins hnames => hno ⟨x, hx, g, hbegins, hnames⟩

end History

/-! ## Runs as histories -/

/-- The moments of a happening. -/
def Happening.moments (h : Happening) (w : World) : List Moment :=
  match h.limit with
  | none => h.activity.program.moments h.surroundings w
  | some limit => (h.activity.program.cut limit).moments h.surroundings w

/-- A happening whose surroundings are passive is a history. -/
lemma Happening.history {h : Happening} (henv : h.surroundings.Passive) (ha : h.activity.Stored)
    (w : World) : History w.store (h.moments w) (h.perform w).store := by
  unfold moments perform
  cases h.limit with
  | none => exact ⟨Program.moments_linked _ _ w, fun x hx =>
      ⟨_, ha, (Program.amid_moments henv _ w).reaches x hx⟩⟩
  | some limit =>
    dsimp only
    rw [← Program.run_cut]
    exact ⟨Program.moments_linked _ _ w, fun x hx =>
      ⟨_, ha, ((Program.amid_moments henv _ w).reaches x hx).of_cut⟩⟩

namespace Run

/-- The moments of a run from a world on. -/
def momentsFrom : Run → World → List Moment
  | [], _ => []
  | h :: rest, w => h.moments w ++ momentsFrom rest (h.perform w)

/-- **A run in passive surroundings is a history.** -/
theorem history {run : Run}
    (hrun : ∀ h ∈ run, h.surroundings.Passive ∧ h.activity.Stored) (w : World) :
    History w.store (run.momentsFrom w) (run.after w).store := by
  induction run generalizing w with
  | nil => exact .nil _
  | cons h rest ih =>
    obtain ⟨⟨henv, ha⟩, hrest⟩ := List.forall_mem_cons.1 hrun
    exact (Happening.history henv ha w).append (ih hrest _)

/-- The world behind a rollout that was made but never started. -/
def unstarted : World := world (registered ++ [making false])

/-- A worker takes the rollout's lease, for a second of its clock. -/
def taking : Happening :=
  undisturbed (.acquireLease (Lease.rolloutKey "r") "worker" 1000 1000) trivial

/-- The worker gives the lease up. -/
def giving : Happening :=
  undisturbed (.releaseLease (Lease.rolloutKey "r") "worker" 1) trivial

/-- The rollout is deleted and reclaimed between two leases of the worker. -/
def takenTwice : Run := [taking, giving, deletion, reclaiming, taking]

lemma moments_taking (w : World) :
    taking.moments w = [⟨none, w.store, (taking.perform w).store⟩] := rfl

lemma history_takenTwice :
    History unstarted.store (takenTwice.momentsFrom unstarted) (takenTwice.after unstarted).store := by
  refine history (fun h hh => ?_) unstarted
  simp only [takenTwice, List.mem_cons, List.not_mem_nil, or_false] at hh
  rcases hh with rfl | rfl | rfl | rfl | rfl <;> exact ⟨fun _ _ => rfl, trivial⟩

end Run

namespace History

theorem tokens_takenTwice :
    Tokens (Lease.rolloutKey "r") (Run.takenTwice.momentsFrom Run.unstarted) :=
  tokens Run.history_takenTwice _

open Run in
/-- Tokens do not grow across a purge: both times the worker gets the token 1. -/
theorem not_tokens_grow :
    ¬ ∀ (s s' : Store) (l₁ l₂ l₃ : List Moment) (m m' : Moment) (key : String) (g g' : Lease),
      History s (l₁ ++ m :: (l₂ ++ m' :: l₃)) s' → m.after.lease? key = some g →
        m'.Begins key g' → g.fencing < g'.fencing := by
  intro h
  have hsplit : takenTwice.momentsFrom unstarted =
      [] ++ ⟨none, unstarted.store, (taking.perform unstarted).store⟩ ::
        (momentsFrom [giving, deletion, reclaiming] (taking.perform unstarted) ++
          ⟨none, (after [taking, giving, deletion, reclaiming] unstarted).store,
            (taking.perform (after [taking, giving, deletion, reclaiming] unstarted)).store⟩ :: []) := by
    simp [takenTwice, momentsFrom, moments_taking, after]
  have hfirst : (taking.perform unstarted).store.lease? (Lease.rolloutKey "r") =
      some ⟨Lease.rolloutKey "r", "worker", 1, 2000⟩ := by cbv
  have hpurged : (after [taking, giving, deletion, reclaiming] unstarted).store.lease?
      (Lease.rolloutKey "r") = none := by cbv
  have hagain : (taking.perform (after [taking, giving, deletion, reclaiming] unstarted)).store.lease?
      (Lease.rolloutKey "r") = some ⟨Lease.rolloutKey "r", "worker", 1, 2000⟩ := by cbv
  have hlt := h _ _ _ _ _ _ _ _ _ _ (hsplit ▸ history_takenTwice) hfirst
    ⟨hagain, fun l hl => by cases hpurged.symm.trans hl⟩
  exact absurd hlt (lt_irrefl 1)

end History

end StagedRollout
