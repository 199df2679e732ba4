/-
# Fences keep former holders out

The order in which holders come to a key, and their clocks, are arbitrary: a lease may be taken
over while its holder still believes to have it.  What keeps that holder from doing harm is the
token in the lease's row.  It never goes back, and it moves on with every grant but one to an owner
that has the lease already (`Store.Succeeds`).  So a fence with a smaller token than a grant's is
superseded from that grant on (`Fence.Superseded`), and whatever stands behind it is turned away.
-/
import StagedRollout.Proofs.Lease.Spared
import StagedRollout.Proofs.Program.Safe

namespace StagedRollout

open Store Transaction

variable {key : String} {s s' s'' : Store}

/-! ## Holdings -/

namespace Store

/-- Whatever lease was under the key, it is the same holding or one with a larger token now. -/
def Succeeds (key : String) (s s' : Store) : Prop :=
  ∀ l, s.lease? key = some l → ∃ l', s'.lease? key = some l' ∧
    (l.fencing < l'.fencing ∨ l'.fencing = l.fencing ∧ l'.owner = l.owner)

namespace Succeeds

lemma refl (key : String) (s : Store) : Succeeds key s s := fun l hl => ⟨l, hl, .inr ⟨rfl, rfl⟩⟩

lemma trans (h : Succeeds key s s') (h' : Succeeds key s' s'') : Succeeds key s s'' := by
  intro l hl
  obtain ⟨l', hl', hmore⟩ := h l hl
  obtain ⟨l'', hl'', hmore'⟩ := h' l' hl'
  refine ⟨l'', hl'', ?_⟩
  rcases hmore with hlt | ⟨heq, howner⟩
  · exact .inl (hlt.trans_le (hmore'.elim le_of_lt fun h => h.1.ge))
  · rcases hmore' with hlt' | ⟨heq', howner'⟩
    · exact .inl (heq ▸ hlt')
    · exact .inr ⟨heq'.trans heq, howner'.trans howner⟩

lemma of_find?_eq (h : s'.leases.find? key = s.leases.find? key) : Succeeds key s s' := by
  intro l hl
  refine ⟨l, ?_, .inr ⟨rfl, rfl⟩⟩
  rw [lease?, Table.intact?, h]
  exact hl

lemma of_acquired {owner : String} {now ttl : Nat} {g : LeaseGrant}
    (h : Acquired key owner now ttl s g s') : Succeeds key s s' := by
  intro l hl
  cases h with
  | first hnew => cases hnew.symm.trans (read_leases hl)
  | next hold =>
    obtain rfl := Option.some.inj (hold.symm.trans hl)
    exact ⟨_, lease?_withLease_self _ _ _, .inl (Nat.lt_succ_self _)⟩
  | again hold _ howner =>
    obtain rfl := Option.some.inj (hold.symm.trans hl)
    exact ⟨_, lease?_withLease_self _ _ _, .inr ⟨rfl, howner.symm⟩⟩
  | held => exact refl key s l hl

lemma of_upkept {owner : String} {token : Nat} {found : Option Lease}
    (h : Upkept key owner token s found s') : Succeeds key s s' := by
  intro l hl
  cases h with
  | kept hold =>
    obtain rfl := Option.some.inj (hold.symm.trans hl)
    exact ⟨_, lease?_withLease_self _ _ _, .inr ⟨rfl, rfl⟩⟩
  | lost => exact refl key s l hl

end Succeeds

end Store

namespace Fence

variable {f : Fence}

/-- The lease is still the holding that the fence names, though it may have run out. -/
def Current (f : Fence) (s : Store) : Prop := ∃ l, s.lease? f.key = some l ∧ f.Names l

/-- The key was granted with a larger token. -/
def Superseded (f : Fence) (s : Store) : Prop := ∃ l, s.lease? f.key = some l ∧ f.token < l.fencing

lemma Superseded.mono (h : f.Superseded s) (hs : Succeeds f.key s s') : f.Superseded s' := by
  obtain ⟨l, hl, hlt⟩ := h
  obtain ⟨l', hl', hmore⟩ := hs l hl
  exact ⟨l', hl', hlt.trans_le (hmore.elim le_of_lt fun h => h.1.ge)⟩

/-- A holding lasts until it is superseded. -/
lemma Current.succeeds (h : f.Current s) (hs : Succeeds f.key s s') :
    f.Current s' ∨ f.Superseded s' := by
  obtain ⟨l, hl, howner, htoken⟩ := h
  obtain ⟨l', hl', hlt | ⟨heq, howner'⟩⟩ := hs l hl
  · exact .inr ⟨l', hl', htoken ▸ hlt⟩
  · exact .inl ⟨l', hl', howner'.trans howner, heq.trans htoken⟩

lemma Superseded.not_current (h : f.Superseded s) : ¬ f.Current s := by
  rintro ⟨l, hl, -, htoken⟩
  obtain ⟨l', hl', hlt⟩ := h
  obtain rfl := Option.some.inj (hl.symm.trans hl')
  exact absurd htoken hlt.ne'

/-- **Nothing is written behind a fence that is superseded**, at any reading of the clock. -/
theorem Superseded.commit_eq {α : Type} (h : f.Superseded s) (now : Nat) (t : Transaction α) :
    ∃ l, s.commit (some f) now t = (.error (.leaseLost f l), s) := by
  obtain ⟨l, hl, hlt⟩ := h
  refine ⟨l, ?_⟩
  have hcheck := f.check_of_not_names hl (fun hn => hlt.ne' hn.2) now
  simp only [commit, checkFence, hcheck]

/-- The former holder cannot extend or give up the lease. -/
lemma Superseded.upkept (h : f.Superseded s) {found : Option Lease}
    (hkept : Upkept f.key f.owner f.token s found s') : found = none ∧ s' = s := by
  cases hkept with
  | kept hl howner htoken => exact absurd ⟨_, hl, howner, htoken⟩ h.not_current
  | lost => exact ⟨rfl, rfl⟩

/-- A grant to somebody else supersedes a holding. -/
lemma superseded_of_acquired {owner : String} {now ttl : Nat} {l : Lease}
    (h : Acquired f.key owner now ttl s (.granted l) s') (hother : owner ≠ f.owner)
    (hsince : f.Current s ∨ f.Superseded s) : f.Superseded s' := by
  rcases hsince with ⟨held, hheld, howner, htoken⟩ | hsuper
  · cases h with
    | first hnew => cases hnew.symm.trans (read_leases hheld)
    | next hl =>
      obtain rfl := Option.some.inj (hl.symm.trans hheld)
      exact ⟨_, lease?_withLease_self _ _ _, by rw [← htoken]; exact Nat.lt_succ_self _⟩
    | again hl _ hsame =>
      obtain rfl := Option.some.inj (hl.symm.trans hheld)
      exact absurd (hsame.symm.trans howner) hother
  · exact hsuper.mono (.of_acquired h)

end Fence

/-! ## Events -/

/-- A transaction, as far as the lease under a key is concerned. -/
inductive LeaseCall (key : String) : Type 1 where
  | acquire (owner : String) (now ttl : Nat)
  | renew (owner : String) (token now ttl : Nat)
  | release (owner : String) (token : Nat)
  /-- The purge of a rollout, which may be the one that the key guards. -/
  | purge (r : Rollout)
  /-- Any other transaction. -/
  | other {α : Type} (t : Transaction α) (spares : t.SparesLease key)

/-- What a call ends with. -/
inductive LeaseAnswer where
  | grant (g : LeaseGrant)
  | renewed (found : Option Lease)
  | released (had : Bool)
  | done
deriving DecidableEq, Repr

namespace LeaseCall

/-- Whether the call may remove the lease. -/
def isPurge : LeaseCall key → Bool
  | purge _ => true
  | _ => false

/-- The name in which the call asks for the lease. -/
def asker? : LeaseCall key → Option String
  | acquire owner _ _ => some owner
  | _ => none

/-- The transaction of a call. -/
def run : LeaseCall key → Transaction LeaseAnswer
  | acquire owner now ttl => do return .grant (← acquireLease key owner now ttl)
  | renew owner token now ttl => do return .renewed (← renewLease key owner token now ttl)
  | release owner token => do return .released (← releaseLease key owner token)
  | purge r => do
    purgeRollout r
    return .done
  | other t _ => do
    let _ ← t
    return .done

end LeaseCall

/-- A call behind a fence, if there is one, and the reading of the clock that the fence is checked
at. -/
structure LeaseEvent (key : String) : Type 1 where
  fence : Option Fence
  clock : Nat
  call : LeaseCall key

namespace LeaseEvent

/-- What the caller is told, and the store behind it. -/
def perform (e : LeaseEvent key) (s : Store) : Except StoreError LeaseAnswer × Store :=
  s.commit e.fence e.clock e.call.run

/-- The store behind some events. -/
def after : List (LeaseEvent key) → Store → Store
  | [], s => s
  | e :: rest, s => after rest (e.perform s).2

/-- The lease that an event grants. -/
def granted? (e : LeaseEvent key) (s : Store) : Option Lease :=
  match (e.perform s).1 with
  | .ok (.grant (.granted l)) => some l
  | _ => none

/-- The leases that some events grant, in order. -/
def grants : List (LeaseEvent key) → Store → List Lease
  | [], _ => []
  | e :: rest, s => (e.granted? s).toList ++ grants rest (e.perform s).2

end LeaseEvent

/-- What comes of a call that is not abandoned. -/
inductive LeaseCall.Outcome (s : Store) : LeaseCall key → LeaseAnswer → Store → Prop
  | acquired {owner : String} {now ttl : Nat} {g : LeaseGrant} {s' : Store}
      (h : Acquired key owner now ttl s g s') : Outcome s (.acquire owner now ttl) (.grant g) s'
  | renewed {owner : String} {token now ttl : Nat} {found : Option Lease} {s' : Store}
      (h : Upkept key owner token s found s') :
      Outcome s (.renew owner token now ttl) (.renewed found) s'
  | released {owner : String} {token : Nat} {found : Option Lease} {s' : Store}
      (h : Upkept key owner token s found s')
      (hgone : ∀ l, found = some l → ∀ now, l.isExpired now = true) :
      Outcome s (.release owner token) (.released found.isSome) s'
  | purged {r : Rollout} {s' : Store}
      (h : s'.leases.find? key = none ∨ s'.leases.find? key = s.leases.find? key) :
      Outcome s (.purge r) .done s'
  | other {α : Type} {t : Transaction α} {spares : t.SparesLease key} {s' : Store}
      (h : s'.leases.find? key = s.leases.find? key) : Outcome s (.other t spares) .done s'

lemma LeaseCall.outcome {c : LeaseCall key} {a : LeaseAnswer} (h : c.run s = .ok (a, s')) :
    c.Outcome s a s' := by
  cases c with
  | acquire owner now ttl =>
    obtain ⟨g, s₁, hrun, hend⟩ := bind_eq_ok h
    obtain ⟨rfl, rfl⟩ := Prod.mk.inj (Except.ok.inj hend)
    exact .acquired (acquireLease_eq_ok hrun)
  | renew owner token now ttl =>
    obtain ⟨found, s₁, hrun, hend⟩ := bind_eq_ok h
    obtain ⟨rfl, rfl⟩ := Prod.mk.inj (Except.ok.inj hend)
    exact .renewed (renewLease_eq_ok hrun)
  | release owner token =>
    obtain ⟨had, s₁, hrun, hend⟩ := bind_eq_ok h
    obtain ⟨rfl, rfl⟩ := Prod.mk.inj (Except.ok.inj hend)
    obtain ⟨found, hkept, rfl, hgone⟩ := releaseLease_eq_ok hrun
    exact .released hkept hgone
  | purge r =>
    obtain ⟨x, s₁, hrun, hend⟩ := bind_eq_ok h
    obtain ⟨rfl, rfl⟩ := Prod.mk.inj (Except.ok.inj hend)
    refine .purged ?_
    by_cases hkey : key = Lease.rolloutKey r.id
    · obtain ⟨-, rfl⟩ := Prod.mk.inj (Except.ok.inj hrun)
      exact .inl (by rw [hkey, OrderedMap.find?_erase, if_pos rfl])
    · exact .inr (SparesLease.purgeRollout hkey s x _ hrun)
  | other t spares =>
    obtain ⟨x, s₁, hrun, hend⟩ := bind_eq_ok h
    obtain ⟨rfl, rfl⟩ := Prod.mk.inj (Except.ok.inj hend)
    exact .other (spares s x _ hrun)

lemma LeaseCall.Outcome.succeeds {c : LeaseCall key} {a : LeaseAnswer} (h : c.Outcome s a s')
    (hkept : c.isPurge = false) : Succeeds key s s' := by
  cases h with
  | acquired h => exact .of_acquired h
  | renewed h => exact .of_upkept h
  | released h => exact .of_upkept h
  | purged => cases hkept
  | other h => exact .of_find?_eq h

namespace LeaseEvent

variable {e : LeaseEvent key}

/-- An event is refused and changes nothing, or its call is done. -/
lemma perform_cases (e : LeaseEvent key) (s : Store) :
    (∃ err, e.perform s = (.error err, s)) ∨
      ∃ a s', e.perform s = (.ok a, s') ∧ e.call.Outcome s a s' := by
  rcases s.commit_cases e.fence e.clock e.call.run with ⟨err, heq⟩ | ⟨a, s', hrun, heq⟩
  · exact .inl ⟨err, heq⟩
  · exact .inr ⟨a, s', heq, LeaseCall.outcome hrun⟩

/-- What an event answers with comes of its call. -/
lemma outcome {a : LeaseAnswer} (h : (e.perform s).1 = .ok a) :
    e.call.Outcome s a (e.perform s).2 := by
  rcases e.perform_cases s with ⟨err, heq⟩ | ⟨b, s', heq, hout⟩
  · rw [heq] at h
    cases h
  · rw [heq] at h ⊢
    exact Except.ok.inj h ▸ hout

lemma succeeds (hkept : e.call.isPurge = false) (s : Store) :
    Succeeds key s (e.perform s).2 := by
  rcases e.perform_cases s with ⟨err, heq⟩ | ⟨a, s', heq, hout⟩
  · rw [heq]
    exact .refl key s
  · rw [heq]
    exact hout.succeeds hkept

/-- **The token never goes back.** -/
theorem after_succeeds {past : List (LeaseEvent key)}
    (hkept : ∀ e ∈ past, e.call.isPurge = false) (s : Store) : Succeeds key s (after past s) := by
  induction past generalizing s with
  | nil => exact .refl key s
  | cons e rest ih =>
    obtain ⟨hfirst, hrest⟩ := List.forall_mem_cons.1 hkept
    exact (succeeds hfirst s).trans (ih hrest _)

lemma granted?_eq_some {l : Lease} :
    e.granted? s = some l ↔ (e.perform s).1 = .ok (.grant (.granted l)) := by
  unfold granted?
  split
  · rename_i l' heq
    rw [heq]
    simp
  · rename_i hno
    exact ⟨nofun, fun h => absurd h (hno l)⟩

/-- A grant comes of an attempt to take the key. -/
lemma acquired_of_granted {l : Lease} (h : e.granted? s = some l) :
    ∃ owner now ttl, Acquired key owner now ttl s (.granted l) (e.perform s).2 := by
  have hout := outcome (granted?_eq_some.1 h)
  generalize e.call = c at hout
  cases hout with
  | acquired h => exact ⟨_, _, _, h⟩

/-- The lease that was granted is the one that is stored. -/
lemma lease?_of_acquired {owner : String} {now ttl : Nat} {l : Lease}
    (h : Acquired key owner now ttl s (.granted l) s') : s'.lease? key = some l := by
  cases h <;> simp

/-- Behind a grant the stored token is as large as the granted one. -/
lemma grants_le {past : List (LeaseEvent key)} (hkept : ∀ e ∈ past, e.call.isPurge = false)
    {g : Lease} (h : g ∈ grants past s) :
    ∃ l, (after past s).lease? key = some l ∧ g.fencing ≤ l.fencing := by
  induction past generalizing s with
  | nil => exact absurd h List.not_mem_nil
  | cons e rest ih =>
    obtain ⟨-, hrest⟩ := List.forall_mem_cons.1 hkept
    rcases List.mem_append.1 h with hnow | hlater
    · obtain ⟨owner, now, ttl, hg⟩ := acquired_of_granted (Option.mem_toList.1 hnow)
      obtain ⟨l, hl, hmore⟩ := after_succeeds hrest (e.perform s).2 g (lease?_of_acquired hg)
      exact ⟨l, hl, hmore.elim le_of_lt fun h => h.1.ge⟩
    · exact ih hrest hlater

/-- A fence with a smaller token than a grant's is superseded from that grant on. -/
lemma superseded_of_grants {past : List (LeaseEvent key)}
    (hkept : ∀ e ∈ past, e.call.isPurge = false) {g : Lease} (h : g ∈ grants past s) {token : Nat}
    (hlt : token < g.fencing) (owner : String) :
    Fence.Superseded ⟨key, owner, token⟩ (after past s) := by
  obtain ⟨l, hl, hle⟩ := grants_le hkept h
  exact ⟨l, hl, hlt.trans_le hle⟩

/-- What holds of an event at a key at which some leases were granted before. -/
structure Safe (granted : List Lease) (s : Store) (e : LeaseEvent key) : Prop where
  /-- A new holding has a larger token than all earlier ones. -/
  fresh : ∀ owner now ttl l, e.call = .acquire owner now ttl →
    (e.perform s).1 = .ok (.grant (.granted l)) →
      (∃ held, s.lease? key = some held ∧ held.isExpired now = false ∧ held.owner = owner) ∨
        ∀ g ∈ granted, g.fencing < l.fencing
  /-- Nobody takes a lease that has not run out from its owner. -/
  exclusive : ∀ owner now ttl held, e.call = .acquire owner now ttl →
    s.lease? key = some held → held.isExpired now = false → held.owner ≠ owner →
      (e.perform s).2 = s ∧ e.granted? s = none ∧
        (e.fence = none → (e.perform s).1 = .ok (.grant (.held held)))
  /-- A lease that was given up has run out at every reading of the clock. -/
  given_up : ∀ owner token, e.call = .release owner token →
    (e.perform s).1 = .ok (.released true) →
      ∃ l, (e.perform s).2.lease? key = some l ∧ ∀ now, l.isExpired now = true
  /-- A former holder writes nothing. -/
  not_written : ∀ g ∈ granted, ∀ owner token, token < g.fencing →
    e.fence = some ⟨key, owner, token⟩ →
      ∃ l, e.perform s = (.error (.leaseLost ⟨key, owner, token⟩ l), s)
  /-- A former holder extends nothing. -/
  not_renewed : ∀ g ∈ granted, ∀ owner token now ttl, token < g.fencing →
    e.call = .renew owner token now ttl →
      (e.perform s).2 = s ∧ ∀ l, (e.perform s).1 ≠ .ok (.renewed (some l))
  /-- A former holder gives nothing up. -/
  not_released : ∀ g ∈ granted, ∀ owner token, token < g.fencing →
    e.call = .release owner token →
      (e.perform s).2 = s ∧ (e.perform s).1 ≠ .ok (.released true)
  /-- What is refused leaves every table as it was. -/
  refused : ∀ err, (e.perform s).1 = .error err → (e.perform s).2 = s

/-- What comes of an event with a call that is known. -/
lemma perform_cases_of {c : LeaseCall key} (h : e.call = c) (s : Store) :
    (∃ err, e.perform s = (.error err, s)) ∨ ∃ a s', e.perform s = (.ok a, s') ∧ c.Outcome s a s' :=
  h ▸ e.perform_cases s

lemma fresh_of_le {granted : List Lease}
    (hle : ∀ g ∈ granted, ∃ l, s.lease? key = some l ∧ g.fencing ≤ l.fencing) {owner : String}
    {now ttl : Nat} {l : Lease} (hcall : e.call = .acquire owner now ttl)
    (hl : (e.perform s).1 = .ok (.grant (.granted l))) :
    (∃ held, s.lease? key = some held ∧ held.isExpired now = false ∧ held.owner = owner) ∨
      ∀ g ∈ granted, g.fencing < l.fencing := by
  have hout := outcome hl
  rw [hcall] at hout
  generalize (e.perform s).2 = s' at hout
  cases hout with
  | acquired h =>
    cases h with
    | first hnew =>
      refine .inr fun g hg => ?_
      obtain ⟨held, hheld, -⟩ := hle g hg
      cases hnew.symm.trans (read_leases hheld)
    | next hold =>
      refine .inr fun g hg => ?_
      obtain ⟨held, hheld, hg⟩ := hle g hg
      obtain rfl := Option.some.inj (hold.symm.trans hheld)
      exact Nat.lt_succ_of_le hg
    | again hold hvalid howner => exact .inl ⟨_, hold, hvalid, howner⟩

lemma exclusive_of_held {owner : String} {now ttl : Nat} {held : Lease}
    (hcall : e.call = .acquire owner now ttl) (hheld : s.lease? key = some held)
    (hvalid : held.isExpired now = false) (howner : held.owner ≠ owner) :
    (e.perform s).2 = s ∧ e.granted? s = none ∧
      (e.fence = none → (e.perform s).1 = .ok (.grant (.held held))) := by
  have hrun : e.call.run s = .ok (.grant (.held held), s) := by
    rw [hcall, LeaseCall.run, bind_run (acquireLease_held hheld hvalid howner)]
    rfl
  rcases s.commit_cases e.fence e.clock e.call.run with ⟨err, heq⟩ | ⟨a, s', hrun', heq⟩
  -- the caller's own fence may turn it away, and nothing else does
  · have hperform : e.perform s = (.error err, s) := heq
    refine ⟨by rw [hperform], by simp [granted?, hperform], fun hnone => ?_⟩
    simp [hnone, commit, checkFence, hrun] at heq
  · obtain ⟨rfl, rfl⟩ := Prod.mk.inj (Except.ok.inj (hrun.symm.trans hrun'))
    have hperform : e.perform s = (.ok (.grant (.held held)), s) := heq
    exact ⟨by rw [hperform], by simp [granted?, hperform], fun _ => by rw [hperform]⟩

lemma expired_of_released {owner : String} {token : Nat} (hcall : e.call = .release owner token)
    (hr : (e.perform s).1 = .ok (.released true)) :
    ∃ l, (e.perform s).2.lease? key = some l ∧ ∀ now, l.isExpired now = true := by
  have hout := outcome hr
  rw [hcall] at hout
  generalize (e.perform s).2 = s' at hout
  generalize hb : true = had at hout
  cases hout with
  | released h hgone =>
    cases h with
    | kept => exact ⟨_, lease?_withLease_self _ _ _, hgone _ rfl⟩
    | lost => cases hb

lemma not_renewed_of_superseded {owner : String} {token now ttl : Nat}
    (h : Fence.Superseded ⟨key, owner, token⟩ s) (hcall : e.call = .renew owner token now ttl) :
    (e.perform s).2 = s ∧ ∀ l, (e.perform s).1 ≠ .ok (.renewed (some l)) := by
  obtain ⟨err, heq⟩ | ⟨a, s', heq, hout⟩ := perform_cases_of hcall s
  · rw [heq]
    exact ⟨rfl, nofun⟩
  · cases hout with
    | renewed hkept =>
      obtain ⟨rfl, rfl⟩ := h.upkept hkept
      rw [heq]
      exact ⟨rfl, nofun⟩

lemma not_released_of_superseded {owner : String} {token : Nat}
    (h : Fence.Superseded ⟨key, owner, token⟩ s) (hcall : e.call = .release owner token) :
    (e.perform s).2 = s ∧ (e.perform s).1 ≠ .ok (.released true) := by
  obtain ⟨err, heq⟩ | ⟨a, s', heq, hout⟩ := perform_cases_of hcall s
  · rw [heq]
    exact ⟨rfl, nofun⟩
  · cases hout with
    | released hkept =>
      obtain ⟨rfl, rfl⟩ := h.upkept hkept
      rw [heq]
      exact ⟨rfl, nofun⟩

/-- **Fencing is safe.**  Whatever happens at a key short of a purge, in whatever order and at
whatever readings of the clock, its token never goes back, and every event is safe with respect to
the leases that were granted before it. -/
theorem fencing_safe {past : List (LeaseEvent key)} (hkept : ∀ e ∈ past, e.call.isPurge = false)
    (s : Store) (e : LeaseEvent key) :
    Succeeds key s (after past s) ∧ e.Safe (grants past s) (after past s) where
  left := after_succeeds hkept s
  right := {
    fresh := fun _ _ _ _ => fresh_of_le fun _ hg => grants_le hkept hg
    exclusive := fun _ _ _ _ => exclusive_of_held
    given_up := fun _ _ => expired_of_released
    not_written := by
      intro g hg owner token hlt hfence
      rw [perform, hfence]
      exact (superseded_of_grants hkept hg hlt owner).commit_eq _ _
    not_renewed := fun _ hg owner _ _ _ hlt =>
      not_renewed_of_superseded (superseded_of_grants hkept hg hlt owner)
    not_released := fun _ hg owner _ hlt =>
      not_released_of_superseded (superseded_of_grants hkept hg hlt owner)
    refused := by
      intro err herr
      obtain ⟨err', heq⟩ | ⟨a, s', heq, -⟩ := e.perform_cases (after past s)
      · rw [heq]
      · rw [heq] at herr
        cases herr }

/-- A lease runs out by somebody's clock and is taken over. -/
def takenOver : List (LeaseEvent "k") :=
  [⟨none, 0, .acquire "a" 100 50⟩, ⟨none, 0, .acquire "b" 150 50⟩]

/-- The former owner's clock runs behind, but the owner cannot extend the lease. -/
theorem fencing_safe_takenOver :
    let late : LeaseEvent "k" := ⟨none, 0, .renew "a" 1 110 50⟩
    (grants takenOver .empty).map (·.fencing) = [1, 2] ∧
      late.Safe (grants takenOver .empty) (after takenOver .empty) ∧
      (late.perform (after takenOver .empty)).1 = .ok (.renewed none) :=
  ⟨by decide, (fencing_safe (by simp [takenOver, LeaseCall.isPurge]) .empty _).2, by decide⟩

end LeaseEvent

end StagedRollout
