/-
# Transactions on one rollout

A transaction is local to a rollout (`Transaction.Local`) if on stores that agree on the rollout's
region it comes to the same, changes nothing beyond the region, and leaves stores that agree on the
region again.  Local transactions are put together from reads and writes of the rollout's own rows;
the rows that were read are known to be its own, because they are tidy.
-/
import StagedRollout.Proofs.Independence.Regions
import StagedRollout.Proofs.Progression.Issued

namespace StagedRollout

namespace Store

variable {watched : Region} {a : RolloutId} {s t s' t' s'' t'' : Store}

/-- Two stores that agree on a rollout's region have changed in it only, and in the same way. -/
structure Twin (watched : Region) (a : RolloutId) (s t s' t' : Store) : Prop where
  left : Agree (.beyond a) s s'
  right : Agree (.beyond a) t t'
  alike : Agree (.own watched a) s' t'
  tidy : Tidy a s'

lemma Twin.refl (h : Agree (.own watched a) s t) (htidy : Tidy a s) : Twin watched a s t s t :=
  ⟨.refl _ s, .refl _ t, h, htidy⟩

lemma Twin.trans (h : Twin watched a s t s' t') (h' : Twin watched a s' t' s'' t'') :
    Twin watched a s t s'' t'' :=
  ⟨h.left.trans h'.left, h.right.trans h'.right, h'.alike, h'.tidy⟩

lemma Twin.tidy_right (h : Twin watched a s t s' t') : Tidy a t' :=
  h.tidy.congr h.alike.rows

end Store

open Store

namespace Transaction

variable {α β : Type} {watched : Region} {a : RolloutId} {P : α → Prop}

/-- On stores that agree on a rollout's region the transaction comes to the same, and it changes
nothing beyond the region.  The value is as promised. -/
def Local (watched : Region) (a : RolloutId) (x : Transaction α) (P : α → Prop) : Prop :=
  ∀ s t, Agree (.own watched a) s t → Tidy a s →
    (∃ e, x s = .error e ∧ x t = .error e) ∨
      ∃ v s' t', x s = .ok (v, s') ∧ x t = .ok (v, t') ∧ P v ∧ Twin watched a s t s' t'

namespace Local

/-! ## Rules -/

lemma pure {v : α} (h : P v) : Local watched a (pure v : Transaction α) P := fun s t hs htidy =>
  .inr ⟨v, s, t, rfl, rfl, h, .refl hs htidy⟩

lemma throw (e : StoreError) : Local watched a (throw e : Transaction α) P := fun _ _ _ _ =>
  .inl ⟨e, rfl, rfl⟩

lemma bind {x : Transaction α} {f : α → Transaction β} {Q : β → Prop}
    (h : Local watched a x P) (hf : ∀ v, P v → Local watched a (f v) Q) :
    Local watched a (x >>= f) Q := by
  intro s t hs htidy
  rcases h s t hs htidy with ⟨e, hx, hx'⟩ | ⟨v, s', t', hx, hx', hv, htwin⟩
  · exact .inl ⟨e, bind_error hx f, bind_error hx' f⟩
  · rw [bind_run hx, bind_run hx']
    rcases hf v hv s' t' htwin.alike htwin.tidy with herror | ⟨w, s'', t'', hw, hw', hQ, htwin'⟩
    · exact .inl herror
    · exact .inr ⟨w, s'', t'', hw, hw', hQ, htwin.trans htwin'⟩

/-- A view of the store that depends on the rollout's region only. -/
lemma look {γ : Type} (view : Store → γ) {f : γ → Transaction α}
    (hview : ∀ s t, Agree (.own watched a) s t → view t = view s)
    (hf : ∀ s, Tidy a s → Local watched a (f (view s)) P) :
    Local watched a (get >>= fun s => f (view s)) P := by
  intro s t hs htidy
  rw [bind_run (get_run s), bind_run (get_run t), hview s t hs]
  exact hf s htidy s t hs htidy

lemma ofExcept {r : Except StoreError α} (h : ∀ v, r = .ok v → P v) :
    Local watched a (liftM r : Transaction α) P := by
  cases r with
  | error e => exact .throw e
  | ok v => exact .pure (h v rfl)

lemma write {f : Store → Store}
    (hbeyond : ∀ s, Agree (.beyond a) s (f s))
    (halike : ∀ s t, Agree (.own watched a) s t → Agree (.own watched a) (f s) (f t))
    (htidy : ∀ s, Tidy a s → Tidy a (f s)) :
    Local watched a (modify f : Transaction PUnit) fun _ => True := fun s t hs hs' =>
  .inr ⟨⟨⟩, f s, f t, rfl, rfl, trivial, hbeyond s, hbeyond t, halike s t hs, htidy s hs'⟩

lemma read {table : Store → Table α} {key : String} {P : Option α → Prop}
    (hfind : ∀ s t, Agree (.own watched a) s t → (table t).find? key = (table s).find? key)
    (hnone : P none)
    (hsome : ∀ s v, Tidy a s → (table s).find? key = some (.intact v) → P (some v)) :
    Local watched a (read table key) P := by
  refine look (fun s => Table.read (table s) key) (f := fun r => liftM r) ?_ ?_
  · intro s t hs
    rw [Table.read, Table.read, hfind s t hs]
  · intro s htidy
    refine ofExcept fun found hfound => ?_
    cases found with
    | none => exact hnone
    | some v =>
      exact hsome s v htidy (Table.intact?_eq_some_iff.1 (Table.read_eq_some_iff.1 hfound))

lemma require {table : Store → Table α} {kind : RowKind} {key : String}
    (hfind : ∀ s t, Agree (.own watched a) s t → (table t).find? key = (table s).find? key)
    (hsome : ∀ s v, Tidy a s → (table s).find? key = some (.intact v) → P v) :
    Local watched a (require table kind key) P := by
  refine bind (read (P := fun found => ∀ v, found = some v → P v) hfind (by simp)
    fun s v htidy hv x hx => Option.some.inj hx ▸ hsome s v htidy hv) fun found hfound => ?_
  cases found with
  | none => exact .throw _
  | some v => exact .pure (hfound v rfl)

/-! ## Rows of the rollout -/

variable {r : Rollout} {g : RolloutGroup} {x : Action} {key : String} {now : Nat}

lemma putRollout (hr : r.IsOf a) : Local watched a (putRollout r) fun _ => True :=
  write (f := (withRollout · r)) (fun s => .of_withRollout s fun h => h hr.1)
    (fun _ _ h => h.withRollout r) fun _ h => h.withRollout hr

lemma writeGroup (hg : g.IsOf a) : Local watched a (writeGroup g) fun _ => True :=
  write (f := (withGroup · g)) (fun s => .of_withGroup s fun h => h hg.1)
    (fun _ _ h => h.withGroup g) fun _ h => h.withGroup hg

lemma writeAction (hx : x.IsOf a) : Local watched a (writeAction x) fun _ => True :=
  write (f := (withAction · x)) (fun s => .of_withAction s fun h => h hx.1)
    (fun _ _ h => h.withAction x) fun _ h => h.withAction hx

lemma writeLease (l : Lease) :
    Local watched a (writeLease (Lease.rolloutKey a) l) fun _ => True :=
  write (f := (withLease · _ l)) (fun s => .of_withLease s (not_not_intro rfl) l)
    (fun _ _ h => h.withLease _ l) fun _ h => h.withLease _ l

lemma requireRollout {id : RolloutId} (hid : id = a) :
    Local watched a (Transaction.require rollouts .rollout id) (·.IsOf a) := by
  subst hid
  exact require (fun _ _ h => h.rollouts id (.inl rfl)) fun _ r h hr => h.row r hr

lemma readGroup (hkey : BelongsTo a key) : Local watched a (Transaction.read Store.groups key)
    fun found => ∀ g, found = some g → g.id = key ∧ g.IsOf a :=
  read (fun _ _ h => h.groups key (.inl hkey)) (fun _ h => nomatch h) fun _ g h hg _ heq =>
    Option.some.inj heq ▸ h.group key g hkey hg

lemma requireGroup (hkey : BelongsTo a key) :
    Local watched a (Transaction.require groups .group key) fun g => g.id = key ∧ g.IsOf a :=
  require (fun _ _ h => h.groups key (.inl hkey)) fun _ g h hg => h.group key g hkey hg

lemma readAction (hkey : BelongsTo a key) : Local watched a (Transaction.read Store.actions key)
    fun found => ∀ x, found = some x → x.id = key ∧ x.IsOf a :=
  read (fun _ _ h => h.actions key (.inl hkey)) (fun _ h => nomatch h) fun _ x h hx _ heq =>
    Option.some.inj heq ▸ h.action key x hkey hx

lemma readLease : Local watched a (Transaction.read Store.leases (Lease.rolloutKey a))
    fun _ => True :=
  read (fun _ _ h => h.leases _ (.inl rfl)) trivial fun _ _ _ _ => trivial

/-! ## Groups -/

lemma putGroup (hg : g.IsOf a) : Local watched a (putGroup g) fun _ => True := by
  refine bind (readGroup hg.1) fun stored _ => writeGroup ?_
  cases stored with
  | none => exact hg
  | some old => exact hg

lemma putGroups {groups : List RolloutGroup} (hgroups : ∀ g ∈ groups, g.IsOf a) :
    Local watched a (putGroups groups) fun _ => True := by
  induction groups with
  | nil => exact pure trivial
  | cons g rest ih =>
    exact bind (putGroup (hgroups g List.mem_cons_self)) fun _ _ =>
      ih fun g hg => hgroups g (List.mem_cons_of_mem _ hg)

lemma putRolloutWithGroups {groups : List RolloutGroup} (hr : r.IsOf a)
    (hgroups : ∀ g ∈ groups, g.IsOf a) :
    Local watched a (putRolloutWithGroups r groups) fun _ => True :=
  bind (putRollout hr) fun _ _ => putGroups hgroups

lemma writeGroups {groups : List RolloutGroup} (hgroups : ∀ g ∈ groups, g.IsOf a) :
    Local watched a (modify (withGroups · groups) : Transaction PUnit) fun _ => True := by
  induction groups with
  | nil => exact pure trivial
  | cons g rest ih =>
    exact bind (writeGroup (hgroups g List.mem_cons_self)) fun _ _ =>
      ih fun g hg => hgroups g (List.mem_cons_of_mem _ hg)

/-- A new rollout is stored with all its groups. -/
lemma createRollout {groups : List RolloutGroup} (hr : r.IsOf a)
    (hgroups : ∀ g ∈ groups, g.IsOf a) :
    Local watched a (createRollout r groups) fun _ => True := by
  refine look (fun s => Table.has s.rollouts r.id) (f := fun taken => do
    if taken then MonadExcept.throw (.conflict r.id)
    Transaction.putRollout r
    modify fun s => { s with groups := groups.foldl (fun t g => Table.put t g.id g) s.groups })
      ?_ fun s _ => ?_
  · intro s t hs
    rw [Table.has, Table.has, hs.rollouts _ (.inl hr.1)]
  · simp only [← withGroups_eq]
    cases Table.has s.rollouts r.id with
    | true => exact throw (.conflict r.id)
    | false => exact bind (putRollout hr) fun _ _ => writeGroups hgroups

lemma appendTargets (hkey : BelongsTo a key) (targets : List TargetId) :
    Local watched a (appendTargets key targets) fun p =>
      p.1.IsOf a ∧ p.2.id = key ∧ p.2.IsOf a := by
  refine bind (requireGroup hkey) fun g hg => bind (requireRollout hg.2.2) fun r hr => ?_
  exact bind (writeGroup hg.2) fun _ _ => bind (putRollout hr) fun _ _ => pure ⟨hr, hg⟩

/-! ## Actions -/

lemma issueEach {actions : List Action} (hactions : ∀ x ∈ actions, x.IsOf a)
    (counts : StatusCounts) :
    Local watched a (issueEach actions counts) fun p => ∀ x ∈ p.1, x.IsOf a := by
  induction actions generalizing counts with
  | nil => exact pure fun _ h => nomatch h
  | cons x rest ih =>
    have hx := hactions x List.mem_cons_self
    have hrest := ih fun y hy => hactions y (List.mem_cons_of_mem _ hy)
    refine look (fun s => Table.has s.actions x.id) (f := fun taken =>
      if taken then Transaction.issueEach rest counts else _) ?_ ?_
    · intro s t hs
      rw [Table.has, Table.has, hs.actions _ (.inl hx.1)]
    · intro s _
      split
      · exact hrest counts
      · refine bind (writeAction hx) fun _ _ => bind (hrest _) fun p hp => pure ?_
        exact List.forall_mem_cons.2 ⟨hx, hp⟩

lemma issueActions (hkey : BelongsTo a key) {actions : List Action}
    (hactions : ∀ x ∈ actions, x.IsOf a) :
    Local watched a (issueActions key actions now) fun issued =>
      issued.group.id = key ∧ issued.group.IsOf a ∧ ∀ x ∈ issued.created, x.IsOf a := by
  refine bind (requireGroup hkey) fun g hg => bind (issueEach hactions _) fun p hp => ?_
  have hbegun : (begun { g with counts := p.2 } now).id = key ∧
      (begun { g with counts := p.2 } now).IsOf a := by
    unfold begun
    split <;> exact hg
  exact bind (writeGroup hbegun.2) fun _ _ => pure ⟨hbegun.1, hbegun.2, hp⟩

lemma recount (hkey : BelongsTo a key) (f : StatusCounts → StatusCounts) :
    Local watched a (recount key f) fun _ => True := by
  refine bind (readGroup hkey) fun found hfound => ?_
  cases found with
  | none => exact pure trivial
  | some g => exact writeGroup (hfound g rfl).2

lemma setStatus (hx : x.IsOf a) (status : ActionStatus) :
    Local watched a (setStatus x status now) fun _ => True :=
  bind (writeAction hx) fun _ _ => bind (recount hx.2.1 _) fun _ _ => pure trivial

lemma report (hkey : BelongsTo a key) (status : ActionStatus) :
    Local watched a (report key status now) fun _ => True := by
  refine bind (readAction hkey) fun found hfound => ?_
  cases found with
  | none => exact pure trivial
  | some x =>
    dsimp only
    split
    · exact pure trivial
    · split
      · exact pure trivial
      · exact bind (setStatus (hfound x rfl).2 status) fun _ _ => pure trivial

lemma cancelEach {actions : List Action} (hactions : ∀ x ∈ actions, x.IsOf a) :
    Local watched a (cancelEach now actions) fun _ => True := by
  induction actions with
  | nil => exact pure trivial
  | cons x rest ih =>
    exact bind (setStatus (hactions x List.mem_cons_self) _) fun _ _ =>
      ih fun y hy => hactions y (List.mem_cons_of_mem _ hy)

lemma cancelOpen (ha : ':' ∉ a.toList) : Local watched a (cancelOpen a now) fun _ => True := by
  refine look (fun s => s.listActions a) (f := fun found =>
    (liftM found : Transaction (List Action)) >>= _) (fun s t h => h.listActions ha) ?_
  intro s htidy
  refine bind (ofExcept fun actions h => h) fun actions hactions => ?_
  refine bind (cancelEach fun x hx => ?_) fun _ _ => pure trivial
  exact htidy.isOf_of_mem_listActions ha hactions (List.mem_of_mem_filter hx)

lemma stopRollout (hr : r.IsOf a) : Local watched a (stopRollout r now) fun _ => True := by
  rw [Transaction.stopRollout, hr.1]
  exact bind (putRollout hr) fun _ _ => cancelOpen hr.2

/-! ## Leases -/

lemma acquireLease (owner : String) (ttl : Nat) :
    Local watched a (acquireLease (Lease.rolloutKey a) owner now ttl) fun _ => True := by
  have hgrant : ∀ l : Lease, Local watched a
      (do Transaction.writeLease (Lease.rolloutKey a) l; return LeaseGrant.granted l)
      fun _ => True := fun l => bind (writeLease l) fun _ _ => pure trivial
  refine bind readLease fun found _ => ?_
  cases found with
  | none => exact hgrant _
  | some l =>
    dsimp only
    split
    · exact hgrant _
    · split
      · exact hgrant _
      · exact pure trivial

lemma renewLease (owner : String) (token ttl : Nat) :
    Local watched a (renewLease (Lease.rolloutKey a) owner token now ttl) fun _ => True := by
  refine bind readLease fun found _ => ?_
  cases found with
  | none => exact pure trivial
  | some l =>
    dsimp only
    split
    · exact bind (writeLease _) fun _ _ => pure trivial
    · exact pure trivial

lemma releaseLease (owner : String) (token : Nat) :
    Local watched a (releaseLease (Lease.rolloutKey a) owner token) fun _ => True := by
  refine bind readLease fun found _ => ?_
  cases found with
  | none => exact pure trivial
  | some l =>
    dsimp only
    split
    · exact bind (writeLease _) fun _ _ => pure trivial
    · exact pure trivial

end Local

end Transaction

end StagedRollout
