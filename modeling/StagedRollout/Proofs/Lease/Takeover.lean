/-
# How a holding ends for good

A holder works on while others act at its key.  Once the lease has been granted to somebody else,
the holding is gone and does not come back (`Fence.Ending`): either because the lease's row stays in
the table, so that the token moved on (`Fence.ending_superseded`), or because nobody else takes
leases in the holder's name, so that the row, if there is one, names somebody else
(`Fence.ending_lost`).  In both cases no write goes through behind the holder's fence, and the
holder can neither extend nor give up what it no longer has (`Fence.Lost`).
-/
import StagedRollout.Proofs.Lease.Fencing

namespace StagedRollout

open Store Transaction

namespace Fence

variable {f : Fence} {s s' : Store}

/-- The lease's row can be read and is not the holding that the fence names. -/
def Lost (f : Fence) (s : Store) : Prop :=
  ∃ found, Table.read s.leases f.key = .ok found ∧ ∀ l, found = some l → ¬ f.Names l

namespace Lost

lemma of_lease? {l : Lease} (h : s.lease? f.key = some l) (hnot : ¬ f.Names l) : f.Lost s :=
  ⟨some l, read_leases h, fun _ heq => Option.some.inj heq ▸ hnot⟩

lemma of_missing (h : s.leases.find? f.key = none) : f.Lost s :=
  ⟨none, by rw [Table.read, h], nofun⟩

lemma not_current (h : f.Lost s) : ¬ f.Current s := by
  rintro ⟨l, hl, hnames⟩
  obtain ⟨found, hread, hnot⟩ := h
  obtain rfl := Except.ok.inj (hread.symm.trans (read_leases hl))
  exact hnot l rfl hnames

/-- The fence turns writes away, because there is no lease or because it is another one. -/
lemma check (h : f.Lost s) (now : Nat) : ∃ e, f.check now s = .error e ∧ e.isFenced = true := by
  obtain ⟨found, hread, hnot⟩ := h
  cases found with
  | none => exact ⟨.leaseMissing f.key, by simp only [Fence.check, hread], rfl⟩
  | some l => exact ⟨_, f.check_of_not_names (Table.read_eq_some_iff.1 hread) (hnot l rfl) now, rfl⟩

/-- There is nothing left to extend. -/
lemma renewLease (h : f.Lost s) (now ttl : Nat) :
    renewLease f.key f.owner f.token now ttl s = .ok (none, s) := by
  obtain ⟨found, hread, hnot⟩ := h
  rw [Transaction.renewLease, bind_run (read_run_of hread)]
  cases found with
  | none => rfl
  | some l =>
    have hno : ¬ (l.owner = f.owner ∧ l.fencing = f.token ∧ l.isExpired now = false) :=
      fun h => hnot l rfl ⟨h.1, h.2.1⟩
    simp only [hno, if_false]
    rfl

/-- There is nothing left to give up. -/
lemma releaseLease (h : f.Lost s) :
    releaseLease f.key f.owner f.token s = .ok (false, s) := by
  obtain ⟨found, hread, hnot⟩ := h
  rw [Transaction.releaseLease, bind_run (read_run_of hread)]
  cases found with
  | none => rfl
  | some l =>
    have hno : ¬ (l.owner = f.owner ∧ l.fencing = f.token) := fun h => hnot l rfl ⟨h.1, h.2⟩
    simp only [hno, if_false]
    rfl

end Lost

lemma Superseded.lost (h : f.Superseded s) : f.Lost s := by
  obtain ⟨l, hl, hlt⟩ := h
  exact .of_lease? hl fun hn => hlt.ne' hn.2

/-- Where the lease's row can be read, the holding is there or it is not. -/
lemma current_or_lost {found : Option Lease} (h : Table.read s.leases f.key = .ok found) :
    f.Current s ∨ f.Lost s := by
  by_cases hn : ∃ l, found = some l ∧ f.Names l
  · obtain ⟨l, rfl, hnames⟩ := hn
    exact .inl ⟨l, Table.read_eq_some_iff.1 h, hnames⟩
  · exact .inr ⟨found, h, fun l hl hnames => hn ⟨l, hl, hnames⟩⟩

lemma current_or_lost_iff :
    (f.Current s ∨ f.Lost s) ↔ ∃ found, Table.read s.leases f.key = .ok found := by
  constructor
  · rintro (⟨l, hl, -⟩ | ⟨found, hread, -⟩)
    · exact ⟨_, read_leases hl⟩
    · exact ⟨found, hread⟩
  · exact fun ⟨_, h⟩ => current_or_lost h

/-! ## What others do -/

/-- A holding ends for good, as far as others may act at its key. -/
structure Ending (f : Fence) (may : LeaseEvent f.key → Prop) (gone : Store → Prop) : Prop where
  lost : ∀ {s}, gone s → f.Lost s
  stays : ∀ {e s}, may e → gone s → gone (e.perform s).2
  holds : ∀ {e s}, may e → f.Current s → f.Current (e.perform s).2 ∨ gone (e.perform s).2
  taken : ∀ {e s l}, may e → f.Current s ∨ gone s → e.granted? s = some l → l.owner ≠ f.owner →
    gone (e.perform s).2

/-- The owner of a granted lease is the one who asked for it. -/
lemma owner_of_acquired {key owner : String} {now ttl : Nat} {l : Lease}
    (h : Acquired key owner now ttl s (.granted l) s') : l.owner = owner := by
  cases h <;> rfl

/-- Where the lease's row stays in the table, the token moves on. -/
lemma ending_superseded (f : Fence) :
    f.Ending (fun e => e.call.isPurge = false) f.Superseded where
  lost := Superseded.lost
  stays hkept h := h.mono (LeaseEvent.succeeds hkept _)
  holds hkept h := h.succeeds (LeaseEvent.succeeds hkept _)
  taken := by
    intro e s l _ hsince hl hother
    obtain ⟨owner, now, ttl, hacquired⟩ := LeaseEvent.acquired_of_granted hl
    exact superseded_of_acquired hacquired (owner_of_acquired hacquired ▸ hother) hsince

/-- A change makes no holding of the holder's: behind it the lease's row can be read, and it is the
holder's only if it was before. -/
structure NotClaimed (f : Fence) (s s' : Store) : Prop where
  readable : ∃ found, Table.read s'.leases f.key = .ok found
  before : f.Current s' → f.Current s

namespace NotClaimed

/-- The row is left alone. -/
lemma of_row (hread : ∃ found, Table.read s.leases f.key = .ok found)
    (h : s'.leases.find? f.key = s.leases.find? f.key) : f.NotClaimed s s' where
  readable := by
    rw [Table.read, h]
    exact hread
  before := by
    rintro ⟨l, hl, hn⟩
    rw [lease?, Table.intact?, h] at hl
    exact ⟨l, hl, hn⟩

/-- The row is removed. -/
lemma of_missing (h : s'.leases.find? f.key = none) : f.NotClaimed s s' where
  readable := ⟨none, by rw [Table.read, h]⟩
  before hcurrent := absurd hcurrent (Lost.of_missing h).not_current

/-- The row is written, with a holding of somebody else or the one that was there. -/
lemma of_withLease {l : Lease} (h : f.Names l → f.Current s) :
    f.NotClaimed s (s.withLease f.key l) where
  readable := ⟨_, read_leases (lease?_withLease_self s f.key l)⟩
  before := by
    rintro ⟨l', hl', hn⟩
    obtain rfl := Option.some.inj ((lease?_withLease_self s f.key l).symm.trans hl')
    exact h hn

lemma of_upkept {owner : String} {token : Nat} {found : Option Lease}
    (hread : ∃ found, Table.read s.leases f.key = .ok found)
    (h : Upkept f.key owner token s found s') : f.NotClaimed s s' := by
  cases h with
  | kept hl _ _ until_ => exact of_withLease fun hn => ⟨_, hl, hn⟩
  | lost => exact of_row hread rfl

lemma of_acquired {owner : String} {now ttl : Nat} {grant : LeaseGrant}
    (hread : ∃ found, Table.read s.leases f.key = .ok found) (howner : owner ≠ f.owner)
    (h : Acquired f.key owner now ttl s grant s') : f.NotClaimed s s' := by
  have hother : ∀ l : Lease, l.owner = owner → f.Names l → f.Current s :=
    fun l hl hn => absurd (hl.symm.trans hn.1) howner
  cases h with
  | first => exact of_withLease (hother _ rfl)
  | next => exact of_withLease (hother _ rfl)
  | again => exact of_withLease (hother _ rfl)
  | held => exact of_row hread rfl

/-- Where nobody asks in the holder's name, no event makes a holding of the holder's. -/
lemma of_perform {e : LeaseEvent f.key} (hmay : e.call.asker? ≠ some f.owner)
    (hread : ∃ found, Table.read s.leases f.key = .ok found) : f.NotClaimed s (e.perform s).2 := by
  obtain ⟨err, heq⟩ | ⟨a, s', heq, hout⟩ := e.perform_cases s
  · rw [heq]
    exact of_row hread rfl
  rw [heq]
  generalize e.call = c at hout hmay
  cases hout with
  | acquired h => exact of_acquired hread (fun howner => hmay (congrArg some howner)) h
  | renewed h => exact of_upkept hread h
  | released h => exact of_upkept hread h
  | purged h =>
    rcases h with hnone | heq
    · exact of_missing hnone
    · exact of_row hread heq
  | other h => exact of_row hread h

end NotClaimed

/-- Where nobody else takes leases in the holder's name, the row names somebody else. -/
lemma ending_lost (f : Fence) :
    f.Ending (fun e => e.call.asker? ≠ some f.owner) f.Lost where
  lost := id
  stays := by
    intro e s hmay hlost
    have hnot : f.NotClaimed s _ := .of_perform hmay (current_or_lost_iff.1 (.inr hlost))
    exact (current_or_lost_iff.2 hnot.readable).resolve_left fun h =>
      hlost.not_current (hnot.before h)
  holds := by
    intro e s hmay hcurrent
    have hnot : f.NotClaimed s _ := .of_perform hmay (current_or_lost_iff.1 (.inl hcurrent))
    exact current_or_lost_iff.2 hnot.readable
  taken := by
    intro e s l _ _ hl hother
    obtain ⟨owner, now, ttl, hacquired⟩ := LeaseEvent.acquired_of_granted hl
    exact .of_lease? (LeaseEvent.lease?_of_acquired hacquired) fun hn => hother hn.1

variable {may : LeaseEvent f.key → Prop} {gone : Store → Prop} {events : List (LeaseEvent f.key)}

lemma Ending.after_stays (h : f.Ending may gone) (hmay : ∀ e ∈ events, may e) (hs : gone s) :
    gone (LeaseEvent.after events s) := by
  induction events generalizing s with
  | nil => exact hs
  | cons e rest ih =>
    obtain ⟨hfirst, hrest⟩ := List.forall_mem_cons.1 hmay
    exact ih hrest (h.stays hfirst hs)

lemma Ending.after_holds (h : f.Ending may gone) (hmay : ∀ e ∈ events, may e) (hs : f.Current s) :
    f.Current (LeaseEvent.after events s) ∨ gone (LeaseEvent.after events s) := by
  induction events generalizing s with
  | nil => exact .inl hs
  | cons e rest ih =>
    obtain ⟨hfirst, hrest⟩ := List.forall_mem_cons.1 hmay
    rcases h.holds hfirst hs with hs | hs
    · exact ih hrest hs
    · have hend := h.after_stays hrest hs
      exact .inr hend

/-- **Behind a grant to somebody else the holding is gone for good.** -/
theorem Ending.after_taken (h : f.Ending may gone) (hmay : ∀ e ∈ events, may e)
    (hs : f.Current s ∨ gone s) {l : Lease} (hl : l ∈ LeaseEvent.grants events s)
    (hother : l.owner ≠ f.owner) : gone (LeaseEvent.after events s) := by
  induction events generalizing s with
  | nil => exact absurd hl List.not_mem_nil
  | cons e rest ih =>
    obtain ⟨hfirst, hrest⟩ := List.forall_mem_cons.1 hmay
    rcases List.mem_append.1 hl with hnow | hlater
    · have hgone := h.taken hfirst hs (Option.mem_toList.1 hnow) hother
      have hend := h.after_stays hrest hgone
      exact hend
    · exact ih hrest (hs.elim (h.holds hfirst) fun hs => .inr (h.stays hfirst hs)) hlater

end Fence

end StagedRollout
