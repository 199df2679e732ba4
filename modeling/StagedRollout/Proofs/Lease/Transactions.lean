/-
# What becomes of a lease

The lease under a key changes in three ways only: it is granted, extended or given up.  Every other
transaction of the store leaves it alone, except for the purge of the rollout that it guards.  A
write behind a fence looks at one lease; whether it may go on depends on that lease and the clock.
-/
import StagedRollout.Proofs.Store.Transactions
import StagedRollout.Store.Lease

namespace StagedRollout

namespace Store

/-- The lease under a key. -/
def lease? (s : Store) (key : String) : Option Lease := Table.intact? s.leases key

/-- The store with a lease under a key. -/
def withLease (s : Store) (key : String) (l : Lease) : Store :=
  { s with leases := Table.put s.leases key l }

@[simp] lemma lease?_withLease (s : Store) (key k : String) (l : Lease) :
    (s.withLease key l).lease? k = if k = key then some l else s.lease? k :=
  Table.intact?_put s.leases key k l

lemma lease?_withLease_self (s : Store) (key : String) (l : Lease) :
    (s.withLease key l).lease? key = some l := by simp

lemma read_leases {s : Store} {key : String} {l : Lease} (h : s.lease? key = some l) :
    Table.read s.leases key = .ok (some l) := Table.read_eq_some_iff.2 h

end Store

open Store

/-- The lease is the holding that the fence names, though it may have run out. -/
def Fence.Names (f : Fence) (l : Lease) : Prop := l.owner = f.owner ∧ l.fencing = f.token

lemma Fence.accepts_iff {f : Fence} {l : Lease} {now : Nat} :
    f.accepts l now = true ↔ f.Names l ∧ l.isExpired now = false := by
  simp [accepts, Names]

/-- A fence whose lease is another holding turns writes away. -/
lemma Fence.check_of_not_names {f : Fence} {s : Store} {l : Lease} (h : s.lease? f.key = some l)
    (hnot : ¬ f.Names l) (now : Nat) : f.check now s = .error (.leaseLost f l) := by
  have hno : f.accepts l now = false := by
    rw [Bool.eq_false_iff]
    exact fun hyes => hnot (accepts_iff.1 hyes).1
  simp [check, read_leases h, hno]

/-- A fence that lets a write go on names the lease. -/
lemma Fence.names_of_check {f : Fence} {s : Store} {now : Nat} (h : f.check now s = .ok ()) :
    ∃ l, s.lease? f.key = some l ∧ f.Names l := by
  unfold check at h
  split at h
  · exact absurd h (by simp)
  · exact absurd h (by simp)
  · rename_i l hread
    split at h
    · rename_i hyes
      exact ⟨l, Table.read_eq_some_iff.1 hread, (accepts_iff.1 hyes).1⟩
    · exact absurd h (by simp)

namespace Transaction

variable {α β : Type} {s s' : Store}

/-! ## Granting -/

/-- What comes of an attempt to take a key. -/
inductive Acquired (key owner : String) (now ttl : Nat) (s : Store) : LeaseGrant → Store → Prop
  /-- The key is new. -/
  | first (hnew : Table.read s.leases key = .ok none) :
      Acquired key owner now ttl s (.granted ⟨key, owner, 1, now + ttl⟩)
        (s.withLease key ⟨key, owner, 1, now + ttl⟩)
  /-- The lease has run out or was given up. -/
  | next {l : Lease} (hl : s.lease? key = some l) (hexpired : l.isExpired now = true) :
      Acquired key owner now ttl s (.granted ⟨key, owner, l.fencing + 1, now + ttl⟩)
        (s.withLease key ⟨key, owner, l.fencing + 1, now + ttl⟩)
  /-- The owner has the lease. -/
  | again {l : Lease} (hl : s.lease? key = some l) (hvalid : l.isExpired now = false)
      (howner : l.owner = owner) :
      Acquired key owner now ttl s (.granted ⟨key, owner, l.fencing, now + ttl⟩)
        (s.withLease key ⟨key, owner, l.fencing, now + ttl⟩)
  /-- Somebody else has the lease. -/
  | held {l : Lease} (hl : s.lease? key = some l) (hvalid : l.isExpired now = false)
      (howner : l.owner ≠ owner) : Acquired key owner now ttl s (.held l) s

lemma acquireLease_eq_ok {key owner : String} {now ttl : Nat} {g : LeaseGrant}
    (h : acquireLease key owner now ttl s = .ok (g, s')) : Acquired key owner now ttl s g s' := by
  obtain ⟨found, s₁, hread, hrest⟩ := bind_eq_ok h
  obtain ⟨rfl, hfound⟩ := read_eq_ok hread
  cases found with
  | none =>
    obtain ⟨rfl, rfl⟩ := Prod.mk.inj (Except.ok.inj hrest)
    exact .first hfound
  | some l =>
    have hl := Table.read_eq_some_iff.1 hfound
    dsimp only at hrest
    split at hrest
    · rename_i hexpired
      obtain ⟨rfl, rfl⟩ := Prod.mk.inj (Except.ok.inj hrest)
      exact .next hl hexpired
    rename_i hvalid
    rw [Bool.not_eq_true] at hvalid
    split at hrest
    · rename_i howner
      obtain ⟨rfl, rfl⟩ := Prod.mk.inj (Except.ok.inj hrest)
      exact .again hl hvalid howner
    · rename_i howner
      obtain ⟨rfl, rfl⟩ := Prod.mk.inj (Except.ok.inj hrest)
      exact .held hl hvalid howner

/-- Somebody else's lease that has not run out is left alone. -/
lemma acquireLease_held {key owner : String} {now ttl : Nat} {l : Lease}
    (hl : s.lease? key = some l) (hvalid : l.isExpired now = false) (howner : l.owner ≠ owner) :
    acquireLease key owner now ttl s = .ok (.held l, s) := by
  rw [acquireLease, bind_run (read_run_of (read_leases hl))]
  simp only [hvalid, howner, if_false, Bool.false_eq_true]
  rfl

/-! ## Extending and giving up -/

/-- What comes of a holder's word on its lease: the lease stays the same holding and runs out at
another time, or the holder has lost it. -/
inductive Upkept (key owner : String) (token : Nat) (s : Store) : Option Lease → Store → Prop
  | kept {l : Lease} (hl : s.lease? key = some l) (howner : l.owner = owner)
      (htoken : l.fencing = token) (until_ : Nat) :
      Upkept key owner token s (some { l with expiresAt := until_ })
        (s.withLease key { l with expiresAt := until_ })
  | lost : Upkept key owner token s none s

lemma renewLease_eq_ok {key owner : String} {token now ttl : Nat} {found : Option Lease}
    (h : renewLease key owner token now ttl s = .ok (found, s')) :
    Upkept key owner token s found s' := by
  obtain ⟨old, s₁, hread, hrest⟩ := bind_eq_ok h
  obtain ⟨rfl, hold⟩ := read_eq_ok hread
  cases old with
  | none =>
    obtain ⟨rfl, rfl⟩ := Prod.mk.inj (Except.ok.inj hrest)
    exact .lost
  | some l =>
    dsimp only at hrest
    split at hrest
    · rename_i hsame
      obtain ⟨rfl, rfl⟩ := Prod.mk.inj (Except.ok.inj hrest)
      exact .kept (Table.read_eq_some_iff.1 hold) hsame.1 hsame.2.1 _
    · obtain ⟨rfl, rfl⟩ := Prod.mk.inj (Except.ok.inj hrest)
      exact .lost

/-- A lease that is given up has run out at every reading of the clock. -/
lemma releaseLease_eq_ok {key owner : String} {token : Nat} {had : Bool}
    (h : releaseLease key owner token s = .ok (had, s')) :
    ∃ found, Upkept key owner token s found s' ∧ had = found.isSome ∧
      ∀ l, found = some l → ∀ now, l.isExpired now = true := by
  obtain ⟨old, s₁, hread, hrest⟩ := bind_eq_ok h
  obtain ⟨rfl, hold⟩ := read_eq_ok hread
  cases old with
  | none =>
    obtain ⟨rfl, rfl⟩ := Prod.mk.inj (Except.ok.inj hrest)
    exact ⟨none, .lost, rfl, nofun⟩
  | some l =>
    dsimp only at hrest
    split at hrest
    · rename_i hsame
      obtain ⟨rfl, rfl⟩ := Prod.mk.inj (Except.ok.inj hrest)
      refine ⟨_, .kept (Table.read_eq_some_iff.1 hold) hsame.1 hsame.2 0, rfl, ?_⟩
      intro l' hl' now
      obtain rfl := Option.some.inj hl'
      simp [Lease.isExpired]
    · obtain ⟨rfl, rfl⟩ := Prod.mk.inj (Except.ok.inj hrest)
      exact ⟨none, .lost, rfl, nofun⟩

end Transaction

end StagedRollout
