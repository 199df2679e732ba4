/-
# Commands that fail leave nothing behind

Whatever is in the store, whatever others do to it meanwhile and whatever the clock shows: a call of
an operator that is answered with an error has changed no table but the leases, and a creation, or a
command that found the lease in other hands, has changed nothing at all.  A command either does not
get the rollout's lease, or it gives the lease up with its last effect (`Operator.Answered`).

Calls are taken apart into their moments amid those of others.  What all commands do with the lease
is said once (`Operator.withLease_amid`); of the work itself it remains that it refuses without a
trace, does not touch the lease and is not told that the rollout is busy (`Operator.Work`).
-/
import StagedRollout.Proofs.Invariants
import StagedRollout.Proofs.Lease.Takeover
import StagedRollout.Proofs.Program.Amid
import StagedRollout.Proofs.Scheduler.Holding

namespace StagedRollout

open Store Transaction

variable {α : Type} {s s' : Store} {l : List Moment}

/-! ## The lease alone -/

/-- The row under a key of the lease table is the same. -/
def Store.SameLease (key : String) (s s' : Store) : Prop :=
  s'.leases.find? key = s.leases.find? key

lemma Store.SameLease.of_leases {key : String} (h : s'.leases = s.leases) :
    s.SameLease key s' := by
  rw [SameLease, h]

lemma Store.SameLease.of_eq {key : String} (h : s' = s) : s.SameLease key s' := .of_leases (h ▸ rfl)

/-- All tables but the leases are the same. -/
def Store.SameButLeases (s s' : Store) : Prop := s' = { s with leases := s'.leases }

namespace Store.SameButLeases

lemma refl (s : Store) : s.SameButLeases s := rfl

lemma trans {s'' : Store} (h : s.SameButLeases s') (h' : s'.SameButLeases s'') :
    s.SameButLeases s'' := by
  rw [SameButLeases, h', h]

lemma of_eq (h : s' = s) : s.SameButLeases s' := h ▸ refl s

lemma withLease (s : Store) (key : String) (l : Lease) : s.SameButLeases (s.withLease key l) := rfl

lemma of_upkept {key owner : String} {token : Nat} {found : Option Lease}
    (h : Upkept key owner token s found s') : s.SameButLeases s' := by
  cases h with
  | kept => exact withLease _ _ _
  | lost => exact refl s

/-- What is so at every moment is so of all moments together where nobody comes between them. -/
lemma of_linked (h : Moment.Linked s l s') (hl : ∀ x ∈ l, x.before.SameButLeases x.after) :
    s.SameButLeases s' :=
  (h.invariant (J := s.SameButLeases) (refl s) fun x hx hs => hs.trans (hl x hx)).2

end Store.SameButLeases

namespace Transaction

/-- Only a row that cannot be read keeps a key from being granted or refused. -/
lemma acquireLease_eq_error {key owner : String} {now ttl : Nat} {e : StoreError}
    (h : acquireLease key owner now ttl s = .error e) : Table.read s.leases key = .error e := by
  cases hread : Table.read s.leases key with
  | error e' =>
    have hfirst : Transaction.read Store.leases key s = .error e' := by
      rw [Transaction.read, bind_run (get_run s), hread]
      rfl
    rw [acquireLease, bind_error hfirst] at h
    exact congrArg _ (Except.error.inj h)
  | ok found =>
    rw [acquireLease, bind_run (read_run_of hread)] at h
    cases found with
    | none => cases h
    | some l =>
      dsimp only at h
      split at h
      · cases h
      · split at h <;> cases h

/-- The holder gives its lease up. -/
lemma releaseLease_run {key : String} {l : Lease} (hl : s.lease? key = some l) :
    releaseLease key l.owner l.fencing s =
      .ok (true, s.withLease key { l with expiresAt := 0 }) := by
  rw [releaseLease, bind_run (read_run_of (read_leases hl))]
  simp only [and_self, if_true]
  rfl

end Transaction

namespace Operator

/-! ## Calls -/

/-- What an operator is asked to do. -/
inductive Call : Type 1 where
  | create (resolver : Resolver) (n : NewRollout)
  | approve (id : RolloutId)
  | deny (id : RolloutId)
  | start (id : RolloutId)
  | pause (id : RolloutId)
  | resume (id : RolloutId)
  | stop (id : RolloutId)
  | delete (id : RolloutId)
  | triggerNext (id : RolloutId)

namespace Call

/-- What a call is answered with if it does not fail. -/
def Result : Call → Type
  | triggerNext _ => RolloutGroup
  | _ => Rollout

/-- The rollout whose lease a call takes. -/
def rollout? : Call → Option RolloutId
  | create _ _ => none
  | approve id | deny id | start id | pause id | resume id | stop id | delete id
  | triggerNext id => some id

/-- The resolver of a call only looks at the store. -/
def Looks : Call → Prop
  | create resolver _ => resolver.Reads
  | _ => True

end Call

/-- Does what is asked. -/
def perform (m : Operator) : (call : Call) → Operation RolloutError call.Result
  | .create resolver n => m.create resolver n
  | .approve id => m.approve id
  | .deny id => m.deny id
  | .start id => m.start id
  | .pause id => m.pause id
  | .resume id => m.resume id
  | .stop id => m.stop id
  | .delete id => m.delete id
  | .triggerNext id => m.triggerNext id

variable {m : Operator} {id : RolloutId}

lemma get_reads (id : RolloutId) : Operation.Reads (get id) :=
  .bind (.mapError_read _ _) fun found => by cases found <;> trivial

/-! ## Taking the lease and giving it up -/

/-- The lease was not to be had.  Nothing changes, and the answer says that somebody else has it or
why the lease's row could not be read or written. -/
structure Declined (m : Operator) (id : RolloutId) (l : List Moment) (r : Except RolloutError α) :
    Prop where
  still : ∀ x ∈ l, x.after = x.before
  reason : (∃ holder, r = .error (.busy id holder)) ∨
    ∃ e, r = .error (.persistence e) ∧ ∃ x ∈ l,
      Table.read x.before.leases (Lease.rolloutKey id) = .error e ∨
        ∃ now, checkFence m.fence now x.before = .error e

/-- The moments of a command that works on a rollout while holding a lease. -/
structure Tenure where
  lease : Lease
  earlier : List Moment
  taking : Moment
  work : List Moment
  giving : Moment

/-- All moments, in order. -/
def Tenure.moments (t : Tenure) : List Moment :=
  t.earlier ++ t.taking :: (t.work ++ [t.giving])

/-- A lease of the rollout is taken and given up. -/
structure Tenure.Of (t : Tenure) (m : Operator) (id : RolloutId) : Prop where
  idle : ∀ x ∈ t.earlier, x.after = x.before
  taken : t.taking.after = t.taking.before.withLease (Lease.rolloutKey id) t.lease
  owner : t.lease.owner = m.owner
  /-- The work itself does not touch the lease. -/
  spared : ∀ x ∈ t.work, Store.SameLease (Lease.rolloutKey id) x.before x.after
  /-- At the last moment nothing changes but leases. -/
  gives : t.giving.before.SameButLeases t.giving.after
  /-- Unless somebody else took it over, the lease is given up.  Only an operator that stands behind
  a fence itself may be kept from that, by its fence. -/
  given_up : ∀ l, t.giving.before.lease? (Lease.rolloutKey id) = some l → l.owner = m.owner →
    l.fencing = t.lease.fencing →
      (∃ l', t.giving.after.lease? (Lease.rolloutKey id) = some l' ∧ l'.owner = l.owner ∧
        l'.fencing = l.fencing ∧ ∀ now, l'.isExpired now = true) ∨
      ∃ f now e, m.fence = some f ∧ f.check now t.giving.before = .error e

/-- What giving up comes to. -/
lemma giving_up {now : Nat} {token : Nat} {had : Except StoreError Bool}
    (h : s.commit m.fence now (releaseLease (Lease.rolloutKey id) m.owner token) = (had, s')) :
    s.SameButLeases s' ∧
      ∀ l, s.lease? (Lease.rolloutKey id) = some l → l.owner = m.owner → l.fencing = token →
        (∃ l', s'.lease? (Lease.rolloutKey id) = some l' ∧ l'.owner = l.owner ∧
          l'.fencing = l.fencing ∧ ∀ now, l'.isExpired now = true) ∨
        ∃ f now e, m.fence = some f ∧ f.check now s = .error e := by
  rcases s.commit_outcome m.fence now (releaseLease (Lease.rolloutKey id) m.owner token) with
    ⟨e, hcheck, heq⟩ | ⟨hcheck, ⟨e, hrun, heq⟩ | ⟨b, s₁, hrun, heq⟩⟩
  · obtain ⟨-, rfl⟩ := Prod.mk.inj (heq.symm.trans h)
    refine ⟨.refl s, fun l hl howner htoken => .inr ?_⟩
    cases hfence : m.fence with
    | none =>
      rw [hfence] at hcheck
      cases hcheck
    | some f =>
      rw [hfence] at hcheck
      exact ⟨f, now, e, rfl, hcheck⟩
  · obtain ⟨-, rfl⟩ := Prod.mk.inj (heq.symm.trans h)
    refine ⟨.refl s, ?_⟩
    rintro l hl howner rfl
    rw [← howner, releaseLease_run hl] at hrun
    cases hrun
  · obtain ⟨-, rfl⟩ := Prod.mk.inj (heq.symm.trans h)
    obtain ⟨found, hupkept, -, -⟩ := releaseLease_eq_ok hrun
    refine ⟨.of_upkept hupkept, ?_⟩
    rintro l hl howner rfl
    rw [← howner, releaseLease_run hl] at hrun
    obtain ⟨-, rfl⟩ := Prod.mk.inj (Except.ok.inj hrun)
    exact .inl ⟨_, lease?_withLease_self _ _ _, rfl, rfl, fun now => by simp [Lease.isExpired]⟩

/-- A grant is written under the key in the name of the one who asked for it. -/
lemma granted_eq {key owner : String} {now ttl : Nat} {g : Lease}
    (h : Acquired key owner now ttl s (.granted g) s') :
    s' = s.withLease key g ∧ g.owner = owner := by
  cases h <;> exact ⟨rfl, rfl⟩

/-- Somebody else's lease is left alone. -/
lemma held_eq {key owner : String} {now ttl : Nat} {g : Lease}
    (h : Acquired key owner now ttl s (.held g) s') : s' = s := by
  cases h
  rfl

/-- The attempt to take the lease is one moment.  It fails where the lease's row cannot be read or
the operator's own fence turns it away. -/
lemma acquire_amid {now : Nat} {r : Except RolloutError LeaseGrant}
    (h : Operation.Amid (Operation.mapError .persistence (Operation.commit m.fence
      (acquireLease (Lease.rolloutKey id) m.owner now m.leaseTtl))) l r) :
    ∃ x, l = [x] ∧
      ((∃ e, r = .error (.persistence e) ∧ x.after = x.before ∧
        (Table.read x.before.leases (Lease.rolloutKey id) = .error e ∨
          ∃ now, checkFence m.fence now x.before = .error e)) ∨
      ∃ grant, r = .ok grant ∧
        Acquired (Lease.rolloutKey id) m.owner now m.leaseTtl x.before grant x.after) := by
  obtain ⟨r', hwrite, rfl⟩ := Operation.amid_mapError h
  obtain ⟨x, now', rfl, hcommit⟩ := Operation.amid_commit hwrite
  refine ⟨x, rfl, ?_⟩
  rcases x.before.commit_outcome m.fence now'
      (acquireLease (Lease.rolloutKey id) m.owner now m.leaseTtl) with
    ⟨e, hcheck, heq⟩ | ⟨-, ⟨e, hrun, heq⟩ | ⟨grant, s, hrun, heq⟩⟩
  · obtain ⟨rfl, hafter⟩ := Prod.mk.inj (heq.symm.trans hcommit)
    exact .inl ⟨e, rfl, hafter.symm, .inr ⟨now', hcheck⟩⟩
  · obtain ⟨rfl, hafter⟩ := Prod.mk.inj (heq.symm.trans hcommit)
    exact .inl ⟨e, rfl, hafter.symm, .inl (acquireLease_eq_error hrun)⟩
  · obtain ⟨rfl, rfl⟩ := Prod.mk.inj (heq.symm.trans hcommit)
    exact .inr ⟨grant, rfl, acquireLease_eq_ok hrun⟩

/-- **What a command does with the lease.**  It does not get it, or it takes it, does its work on
the rollout and gives the lease up, whatever comes of the work. -/
theorem withLease_amid {work : Fence → Rollout → Operation RolloutError α}
    {r : Except RolloutError α} (h : Operation.Amid (m.withLease id work) l r)
    (hspares : ∀ fence row,
      Operation.Writes (Store.SameLease (Lease.rolloutKey id)) (work fence row)) :
    m.Declined id l r ∨ ∃ t : Tenure, l = t.moments ∧ t.Of m id ∧
      ∃ fence, Operation.Amid (get id >>= work fence) t.work r := by
  obtain ⟨x₀, now, l₁, rfl, hidle, h₁⟩ := Operation.amid_now_bind h
  rcases Operation.amid_bind h₁ with ⟨e, hacquire, rfl⟩ | ⟨l₂, grant, l₃, rfl, hacquire, h₂⟩
  · obtain ⟨x, rfl, ⟨e', he, hafter, hreason⟩ | ⟨grant, hgrant, -⟩⟩ := acquire_amid hacquire
    · obtain rfl := Except.error.inj he
      refine .inl ⟨?_, .inr ⟨e', rfl, x, by simp, hreason⟩⟩
      exact List.forall_mem_cons.2 ⟨hidle, List.forall_mem_singleton.2 hafter⟩
    · cases hgrant
  obtain ⟨x, rfl, ⟨e', he, -⟩ | ⟨grant', hgrant, hacquired⟩⟩ := acquire_amid hacquire
  · cases he
  obtain rfl := Except.ok.inj hgrant
  cases grant with
  | held other =>
    obtain ⟨rfl, rfl⟩ := Operation.amid_throw h₂
    refine .inl ⟨?_, .inl ⟨_, rfl⟩⟩
    exact List.forall_mem_cons.2 ⟨hidle, List.forall_mem_singleton.2 (held_eq hacquired)⟩
  | granted g =>
    obtain ⟨htaken, howner⟩ := granted_eq hacquired
    -- errors of the work and of giving the lease up are caught, so the last moment always comes
    obtain ⟨l₄, result, l₅, rfl, hwork, h₃⟩ := Operation.amid_attempt_bind h₂
    obtain ⟨l₆, had, l₇, rfl, hrelease, h₄⟩ := Operation.amid_attempt_bind h₃
    obtain ⟨y, now', rfl, hcommit⟩ := Operation.amid_commit hrelease
    obtain ⟨rfl, rfl⟩ := Operation.amid_ofExcept h₄
    obtain ⟨hgives, hgiven⟩ := giving_up hcommit
    have hspared : Operation.Writes (Store.SameLease (Lease.rolloutKey id))
        (get id >>= work ⟨Lease.rolloutKey id, m.owner, g.fencing⟩) :=
      .bind (.of_reads (get_reads id)) (hspares _)
    refine .inr ⟨⟨g, [x₀], x, l₄, y⟩, by simp [Tenure.moments], ?_, _, hwork⟩
    exact ⟨List.forall_mem_singleton.2 hidle, htaken, howner, fun z hz =>
      (hspared.reaches (hwork.reaches z hz)).elim .of_eq fun h => h, hgives, hgiven⟩

/-! ## The work -/

/-- Nobody is told that a rollout is busy. -/
def NotBusy (e : RolloutError) : Prop := ∀ id holder, e ≠ .busy id holder

/-- The operation only looks, and nobody is told by it that a rollout is busy. -/
structure Query (op : Operation RolloutError α) : Prop where
  reads : Operation.Reads op
  not_busy : Operation.Fails NotBusy op

namespace Query

lemma throw {e : RolloutError} (h : NotBusy e) : Query (throw e : Operation RolloutError α) :=
  ⟨.throw e, .throw h⟩

lemma nowSeconds : Query (Operation.nowSeconds : Operation RolloutError Nat) :=
  ⟨.nowSeconds, .nowSeconds⟩

lemma read (view : Store → Except StoreError α) :
    Query (Operation.mapError .persistence (Operation.read view)) :=
  ⟨.mapError_read _ _, .mapError (fun _ => nofun) _⟩

/-- A command that is not accepted is refused as such. -/
lemma apply (r : Rollout) (c : Command) (now : Nat) :
    Query (Operation.ofExcept (r.apply c now)) := by
  refine ⟨.ofExcept _, .ofExcept fun e he => ?_⟩
  unfold Rollout.apply at he
  split at he
  · cases he
  · cases he
    nofun

lemma get (id : RolloutId) : Query (get id) where
  reads := get_reads id
  not_busy := .bind (read _).not_busy fun found => by
    cases found with
    | none => exact .throw nofun
    | some r => exact .pure r

end Query

/-- Work on a rollout under its lease: where it fails it has changed nothing, it does not touch the
lease of any key, and it does not say that a rollout is busy. -/
structure Work (op : Operation RolloutError α) : Prop where
  refuses : Operation.Refuses op
  keeps : Operation.Writes Store.SameBeside op
  not_busy : Operation.Fails NotBusy op

namespace Work

variable {β : Type}

lemma spares {op : Operation RolloutError α} (h : Work op) (key : String) :
    Operation.Writes (Store.SameLease key) op :=
  h.keeps.mono fun _ _ h => .of_leases h.leases

lemma of_query {op : Operation RolloutError α} (h : Query op) : Work op :=
  ⟨.of_reads h.reads, .of_reads h.reads, h.not_busy⟩

/-- The work looks at something first. -/
lemma bind {op : Operation RolloutError α} {f : α → Operation RolloutError β} (h : Query op)
    (hf : ∀ a, Work (f a)) : Work (op >>= f) where
  refuses := .bind_of_reads h.reads fun a => (hf a).refuses
  keeps := .bind (.of_reads h.reads) fun a => (hf a).keeps
  not_busy := h.not_busy.bind fun a => (hf a).not_busy

/-- The work ends with its only write. -/
lemma write {t : Transaction α} (fence : Option Fence) (ht : t.KeepsBeside) (f : α → β) :
    Work (Operation.mapError .persistence (Operation.commit fence t) >>= fun a =>
      pure (f a)) where
  refuses := .bind_pure (.mapError (.commit fence t)) f
  keeps := .bind (.mapError (.commit fence ht)) fun a => .pure (f a)
  not_busy := .bind (.mapError (fun _ => nofun) _) fun a => .pure (f a)

end Work

/-- The operation is work on a rollout under its lease. -/
def WorksUnderLease (m : Operator) (id : RolloutId) (op : Operation RolloutError α) : Prop :=
  ∃ work, op = m.withLease id work ∧ ∀ fence r, Work (work fence r)

lemma command_works (c : Command) : m.WorksUnderLease id (m.command id c) :=
  ⟨_, rfl, fun _ r => .bind .nowSeconds fun now => .bind (.apply r c now) fun r' =>
    .write _ (.putRollout r') _⟩

lemma resume_works : m.WorksUnderLease id (m.resume id) :=
  ⟨_, rfl, fun _ r => .bind .nowSeconds fun now => .bind (.apply r .resume now) fun r' =>
    .bind (.read _) fun groups => .write _ (.putRolloutWithGroups r' (acknowledged groups)) _⟩

lemma stop_works : m.WorksUnderLease id (m.stop id) :=
  ⟨_, rfl, fun _ r => .bind .nowSeconds fun now => .bind (.apply r .stop now) fun r' =>
    .write _ (.stopRollout r' now) _⟩

lemma triggerNext_works : m.WorksUnderLease id (m.triggerNext id) := by
  refine ⟨_, rfl, fun _ r => ?_⟩
  dsimp only
  split
  · exact .of_query (.throw nofun)
  · refine .bind (.read _) fun groups => ?_
    cases groups.find? fun g => decide (g.state = .running) with
    | none => exact .of_query (.throw nofun)
    | some g => exact .bind .nowSeconds fun now => .write _ (.putGroup _) _

/-- All calls but creations are work on a rollout under its lease. -/
lemma perform_works (m : Operator) {call : Call} (h : call.rollout? = some id) :
    m.WorksUnderLease id (m.perform call) := by
  cases call with
  | create resolver n => cases h
  | approve | deny | start | pause | delete =>
    obtain rfl := Option.some.inj h
    exact command_works _
  | resume =>
    obtain rfl := Option.some.inj h
    exact resume_works
  | stop =>
    obtain rfl := Option.some.inj h
    exact stop_works
  | triggerNext =>
    obtain rfl := Option.some.inj h
    exact triggerNext_works

/-- A creation that is refused has changed nothing. -/
lemma create_refuses (m : Operator) {resolver : Resolver} (hresolver : resolver.Reads)
    (n : NewRollout) : Operation.Refuses (m.create resolver n) := by
  refine .bind_of_reads (.ofExcept _) fun _ => .bind_of_reads (.mapError_read _ _) fun found => ?_
  cases hfound : found.isSome with
  | true => exact .of_reads (.throw _)
  | false =>
    refine .bind_of_reads (hresolver _) fun targets => .bind_of_reads (.ofExcept _) fun plans => ?_
    refine .bind_of_reads .nowSeconds fun now => .bind_of_reads (.ofExcept _) fun r => ?_
    exact .bind_pure (.mapError (.commit _ _)) _

/-! ## Calls amid others -/

/-- What is so of a call, by the moments at which it did something and by its answer. -/
structure Answered (m : Operator) (call : Call) (l : List Moment)
    (r : Except RolloutError call.Result) : Prop where
  /-- Where the call failed, no moment changed a table but the leases. -/
  refused : ∀ e, r = .error e → ∀ x ∈ l, x.before.SameButLeases x.after
  /-- A creation that failed and a command that found its rollout busy changed nothing. -/
  untouched : ∀ e, r = .error e → (call.rollout? = none ∨ ∃ id holder, e = .busy id holder) →
    ∀ x ∈ l, x.after = x.before
  /-- The rollout's lease was not to be had, or it was taken and given up. -/
  lease : ∀ id, call.rollout? = some id →
    m.Declined id l r ∨ ∃ t : Tenure, l = t.moments ∧ t.Of m id
  /-- Where nobody came between the moments, a call that failed leaves the tables as they were, and
  an operator without a fence leaves a lease that has run out, with the token that was granted. -/
  alone : ∀ s s', Moment.Linked s l s' →
    (∀ e, r = .error e → s.SameButLeases s') ∧
    ∀ (t : Tenure) id, l = t.moments → t.Of m id → m.fence = none →
      ∃ l', s'.lease? (Lease.rolloutKey id) = some l' ∧ l'.owner = m.owner ∧
        l'.fencing = t.lease.fencing ∧ ∀ now, l'.isExpired now = true

namespace Tenure.Of

variable {t : Tenure}

/-- Where the work changed nothing, taking the lease and giving it up is all that changed. -/
lemma sameButLeases (h : t.Of m id) (hwork : ∀ x ∈ t.work, x.after = x.before) :
    ∀ x ∈ t.moments, x.before.SameButLeases x.after := by
  refine List.forall_mem_append.2 ⟨fun x hx => .of_eq (h.idle x hx), ?_⟩
  refine List.forall_mem_cons.2 ⟨h.taken ▸ .withLease _ _ _, ?_⟩
  exact List.forall_mem_append.2 ⟨fun x hx => .of_eq (hwork x hx),
    List.forall_mem_singleton.2 h.gives⟩

/-- Where nobody comes between its moments, an operator without a fence leaves a lease that has run
out. -/
lemma expired (h : t.Of m id) (hfence : m.fence = none) (hl : Moment.Linked s t.moments s') :
    ∃ l', s'.lease? (Lease.rolloutKey id) = some l' ∧ l'.owner = m.owner ∧
      l'.fencing = t.lease.fencing ∧ ∀ now, l'.isExpired now = true := by
  obtain ⟨s₁, -, -, hrest⟩ := Moment.linked_append.1 hl
  obtain ⟨s₂, hwork, hgiving, rfl⟩ := Moment.linked_append.1 hrest
  have hrow : Store.SameLease (Lease.rolloutKey id) t.taking.after s₂ :=
    (hwork.invariant (J := Store.SameLease _ t.taking.after) rfl
      fun x hx hs => (h.spared x hx).trans hs).2
  have hlease : t.giving.before.lease? (Lease.rolloutKey id) = some t.lease := by
    rw [hgiving, lease?, Table.intact?, hrow, h.taken]
    exact lease?_withLease_self _ _ _
  -- nobody but the work comes between taking and giving, so it is still the lease that was granted
  rcases h.given_up t.lease hlease h.owner rfl with
    ⟨l', hl', howner, htoken, hgone⟩ | ⟨f, _, _, hf, -⟩
  · exact ⟨l', hl', howner.trans h.owner, htoken, hgone⟩
  · cases hfence.symm.trans hf

end Tenure.Of

/-- What is so of a call whose failures are known. -/
lemma Answered.of_refused {call : Call} {r : Except RolloutError call.Result}
    (hrefused : ∀ e, r = .error e → ∀ x ∈ l, x.before.SameButLeases x.after)
    (huntouched : ∀ e, r = .error e → (call.rollout? = none ∨ ∃ id holder, e = .busy id holder) →
      ∀ x ∈ l, x.after = x.before)
    (hlease : ∀ id, call.rollout? = some id →
      m.Declined id l r ∨ ∃ t : Tenure, l = t.moments ∧ t.Of m id) : m.Answered call l r :=
  ⟨hrefused, huntouched, hlease, fun _ _ hl => ⟨fun e he => .of_linked hl (hrefused e he),
    fun _ _ heq ht hfence => ht.expired hfence (heq ▸ hl)⟩⟩

/-- **Calls that fail are atomic, and no lease is leaked.**  Whatever others do meanwhile and
whatever the clock shows, a call that fails changes no table but the leases, and nothing at all if
it is a creation or finds the rollout busy; and a command that gets the rollout's lease gives it
up. -/
theorem answered {call : Call} {r : Except RolloutError call.Result} (hcall : call.Looks)
    (h : Operation.Amid (m.perform call) l r) : m.Answered call l r := by
  cases hid : call.rollout? with
  | none =>
    have hstill : ∀ e, r = .error e → ∀ x ∈ l, x.after = x.before := by
      rintro e rfl
      cases call with
      | create resolver n => exact create_refuses m hcall n l e h
      | approve | deny | start | pause | resume | stop | delete | triggerNext => cases hid
    refine .of_refused (fun e he x hx => .of_eq (hstill e he x hx)) (fun e he _ => hstill e he) ?_
    intro id hid'
    cases hid.symm.trans hid'
  | some id =>
    obtain ⟨work, hperform, hwork⟩ := perform_works m hid
    rw [hperform] at h
    have hlease : ∀ id', call.rollout? = some id' → id' = id := fun id' hid' =>
      (Option.some.inj (hid.symm.trans hid')).symm
    rcases withLease_amid h fun fence row => (hwork fence row).spares _ with
      hdeclined | ⟨t, rfl, ht, fence, hdone⟩
    · refine .of_refused (fun e _ x hx => .of_eq (hdeclined.still x hx))
        (fun _ _ _ => hdeclined.still) ?_
      rintro id' hid'
      obtain rfl := hlease id' hid'
      exact .inl hdeclined
    · have hall : Work (get id >>= work fence) := .bind (.get id) (hwork fence)
      refine .of_refused ?_ ?_ ?_
      · rintro e rfl
        exact ht.sameButLeases (hall.refuses _ e hdone)
      · rintro e rfl (hnone | ⟨id', holder, rfl⟩)
        · cases hid.symm.trans hnone
        · exact absurd rfl (hall.not_busy _ _ hdone id' holder)
      · intro id' hid'
        obtain rfl := hlease id' hid'
        exact .inr ⟨t, rfl, ht⟩

/-- An operator wants to approve a rollout that runs already. -/
theorem answered_approve :
    let m : Operator := ⟨none, .standard, false, 30000, "operator"⟩
    ∃ l, Operation.Amid (m.perform (.approve "r")) l
        (.error (.invalidTransition "r" .running (.command .approve))) ∧
      m.Answered (.approve "r") l (.error (.invalidTransition "r" .running (.command .approve))) := by
  have hpassive : Run.quiet.Passive := fun _ _ => rfl
  have hrun := Program.amid_moments hpassive (ExceptT.run
    (perform ⟨none, .standard, false, 30000, "operator"⟩ (.approve "r"))) Run.threeStages.world
  rw [show ((ExceptT.run (perform ⟨none, .standard, false, 30000, "operator"⟩ (.approve "r"))).run
    Run.quiet Run.threeStages.world).1 =
      .error (.invalidTransition "r" .running (.command .approve)) by cbv] at hrun
  exact ⟨_, hrun, answered trivial hrun⟩

end Operator

end StagedRollout
