/-
# Holders of a rollout's lease

Operators and schedulers work on a rollout while they hold its lease: they take the lease, read the
rollout, write behind the fence of their holding and give the lease up.  Each of them reads before
it writes, and a write leaves it knowing the row that it left, so their work is careful, whoever
comes in between.
-/
import StagedRollout.Operator.Command
import StagedRollout.Proofs.Scheduler.Holding
import StagedRollout.Proofs.Sharing.Careful

namespace StagedRollout

open Store Transaction Progression

variable {α β ε ε' : Type} {id : RolloutId} {owner : String} {stops : Prop} {s : Store} {f : Fence}
  {known : Known}

/-! ## Working with a known row -/

/-- A careful operation of an owner that knows the row behind it, if it does not fail. -/
def Operation.Works (id : RolloutId) (owner : String) (stops : Prop) (op : Operation ε α)
    (Q : α → Store → Prop) (known : Known) (s : Store) : Prop :=
  Operation.Careful id owner stops op (fun a known' s' => Knows id owner known' s' ∧ Q a s')
    (fun _ _ _ => True) known s

namespace Operation.Works

variable {op : Operation ε α} {Q : α → Store → Prop}

lemma bind {g : α → Operation ε β} {Q : β → Store → Prop} {P : α → Store → Prop}
    (h : Operation.Works id owner stops op P known s)
    (hg : ∀ a known' s', Knows id owner known' s' → P a s' →
      Operation.Works id owner stops (g a) Q known' s') :
    Operation.Works id owner stops (op >>= g) Q known s :=
  Operation.Careful.bind (Operation.Careful.mono h
    (fun a known' s' ha => hg a known' s' ha.1 ha.2) fun _ _ _ h => h)

lemma pure {a : α} (h : Knows id owner known s) (hQ : Q a s) :
    Operation.Works id owner stops (pure a : Operation ε α) Q known s := ⟨h, hQ⟩

lemma mapError {map : ε → ε'} (h : Operation.Works id owner stops op Q known s) :
    Operation.Works id owner stops (Operation.mapError map op) Q known s :=
  Operation.Careful.mapError (Operation.Careful.mono h (fun _ _ _ h => h) fun _ _ _ _ => trivial)

lemma ofExcept {r : Except ε α} (h : Knows id owner known s) :
    Operation.Works id owner stops (Operation.ofExcept r) (fun _ _ => True) known s :=
  Operation.Careful.ofExcept (fun _ _ => ⟨h, trivial⟩) fun _ _ => trivial

lemma now (h : Knows id owner known s) :
    Operation.Works id owner stops (Operation.now : Operation ε Nat) (fun _ _ => True) known s :=
  Operation.Careful.now fun _ => ⟨h, trivial⟩

lemma nowSeconds (h : Knows id owner known s) :
    Operation.Works id owner stops (Operation.nowSeconds : Operation ε Nat) (fun _ _ => True)
      known s :=
  Operation.Careful.nowSeconds fun _ => ⟨h, trivial⟩

/-- Groups that were stored before an operation are stored behind it. -/
lemma has {groups : List RolloutGroup} (h : Operation.Works id owner stops op Q known s)
    (hg : s.Has groups) :
    Operation.Works id owner stops op (fun a s' => Q a s' ∧ s'.Has groups) known s :=
  Program.Careful.mono (Program.Careful.has h hg) fun r _ _ hr => match r with
    | .ok _ => ⟨hr.1.1, hr.1.2, hr.2⟩
    | .error _ => trivial

lemma commit {t : Transaction α} (hf : f.IsOf id owner)
    (ht : t.KeepsBeside) (h : Knows id owner known s)
    (hrun : ∀ a s' s'', Meanwhile id owner s s' → s'.Balanced → t s' = .ok (a, s'') →
      s'.Respects stops s'' ∧ Q a s'') :
    Operation.Works id owner stops (Operation.commit (some f) t) Q known s :=
  Operation.Careful.commit hf ht h (fun a s' s'' hs hb ht =>
    ⟨(hrun a s' s'' hs hb ht).1, fun _ hk => ⟨hk, (hrun a s' s'' hs hb ht).2⟩⟩) fun _ _ _ => trivial

end Operation.Works

/-- A rollout is read, and from then on its row is known. -/
lemma requireRollout_works :
    Operation.Works id owner stops (requireRollout id) (fun _ _ => True) known s := by
  refine Operation.Careful.bind (.mapError (.readRow (fun found known' s' hk => ?_)
    fun _ _ _ => trivial))
  cases found with
  | none => exact trivial
  | some r => exact ⟨hk, trivial⟩

/-- The groups that are listed are stored. -/
lemma listGroups_works {rollout : RolloutId} (h : Knows id owner known s) :
    Operation.Works id owner stops
      (Operation.mapError RolloutError.persistence (Operation.read fun s => s.listGroups rollout))
      (fun groups s' => s'.Has groups) known s := by
  refine .mapError (Operation.Careful.read h (fun groups known' s' _ hb hk hlist =>
    ⟨hk, fun g hmem => ?_⟩) fun _ _ _ => trivial)
  obtain ⟨key, hkey⟩ := Table.mem_rows.1 ((Table.sublist_of_list hlist).subset hmem)
  have hid : g.id = key := hb.group_key hkey
  exact ⟨g, hid ▸ hkey⟩

/-! ## Schedulers -/

lemma id_of_settle? {g g' : RolloutGroup} {verdict : Verdict} {now : Nat}
    (h : g.settle? verdict now = some g') : g'.id = g.id := by
  unfold RolloutGroup.settle? at h
  split at h
  · obtain ⟨p, -, rfl⟩ := Option.map_eq_some_iff.1 h
    rfl
  · cases h

section

variable (hf : f.IsOf id owner) {now : Nat} {r : Rollout} {g : RolloutGroup}
include hf

lemma saveRollout_works (h : Knows id owner known s) :
    Operation.Works id owner stops (saveRollout (some f) r) (fun _ _ => True) known s :=
  .mapError (.commit hf (.putRollout r) h fun _ _ _ _ hb hrun =>
    ⟨putRollout_respects hb hrun, trivial⟩)

/-- A rollout is stopped by somebody who may ask devices to cancel. -/
lemma stopRollout_works (h : Knows id owner known s) :
    Operation.Works id owner True (Operation.commit (some f) (stopRollout r now))
      (fun _ _ => True) known s :=
  .commit hf (.stopRollout _ _) h fun _ _ _ _ hb hrun => ⟨stopRollout_respects hb hrun, trivial⟩

omit hf in
lemma notify_works {actions : List Action} {Q : Unit → Known → Store → Prop}
    (hQ : Q () known s) : Program.Careful id owner stops (notify actions) Q known s := by
  induction actions with
  | nil => exact hQ
  | cons a rest ih => exact fun _ => ih

lemma issue_works {targets : List TargetId} (h : Knows id owner known s) :
    Operation.Works id owner stops (issue (some f) r g targets now)
      (fun issued s' => s'.Has [issued.group]) known s := by
  have hgroup : ∀ a ∈ targets.map (newAction r g now), a.groupId = g.id := by
    intro a ha
    obtain ⟨t, -, rfl⟩ := List.mem_map.1 ha
    rfl
  have hcommit : Operation.Works id owner stops
      (Operation.commit (some f) (issueActions g.id (targets.map (newAction r g now)) now))
      (fun issued s' => s'.Has [issued.group]) known s := by
    refine .commit hf (.issueActions _ _ _) h fun issued s' s'' _ hb hrun => ?_
    obtain ⟨hrespects, hstored⟩ := issueActions_respects hb hgroup hrun
    exact ⟨hrespects, List.forall_mem_singleton.2 ⟨_, hstored⟩⟩
  exact .bind (.mapError hcommit) fun issued known' s' hk hissued =>
    Operation.Careful.bind (.lift (notify_works ⟨hk, hissued⟩))

/-- Groups that were read earlier are written with their rollout. -/
lemma putRolloutWithGroups_works {groups : List RolloutGroup} (h : Knows id owner known s)
    (hg : s.Has groups) :
    Operation.Works id owner stops (Operation.commit (some f) (putRolloutWithGroups r groups))
      (fun _ _ => True) known s :=
  .commit hf (.putRolloutWithGroups _ _) h fun _ _ _ hs hb hrun =>
    ⟨putRolloutWithGroups_respects hb (hs.has hg) hrun, trivial⟩

/-- A group that was read earlier is written. -/
lemma putGroup_works (h : Knows id owner known s) (hg : s.Has [g]) :
    Operation.Works id owner stops (Operation.commit (some f) (putGroup g)) (fun _ _ => True)
      known s := by
  refine .commit hf (.putGroup _) h fun _ s' _ hs hb hrun => ⟨?_, trivial⟩
  obtain ⟨old, hold⟩ := hs.has hg g List.mem_cons_self
  exact putGroup_respects hb hold hrun

lemma enter_works {previous : Option RolloutGroup} (h : Knows id owner known s) (hg : s.Has [g]) :
    Operation.Works id owner stops (enter (some f) now previous r g) (fun entry s' =>
      match entry with
      | .running g' _ => s'.Has [g']
      | _ => True) known s := by
  unfold enter
  cases hstate : g.state with
  | finished => exact .pure h trivial
  | error =>
    dsimp only
    split <;> exact .pure h trivial
  | scheduled | ready =>
    dsimp only
    split
    · have hstart : Operation.Works id owner stops (startGroup (some f) r g now)
          (fun g' s' => s'.Has [g']) known s := by
        unfold startGroup
        rw [hstate]
        exact .bind (issue_works hf h) fun issued _ _ hk hissued => .pure hk hissued
      exact .bind hstart fun g' _ _ hk hg' => .pure hk hg'
    · exact .pure h trivial
  | running =>
    dsimp only
    split
    · exact .bind (issue_works hf h) fun issued known' s' hk hissued => .pure hk hissued
    · exact .pure h hg

/-- The walk writes groups that are stored. -/
lemma walk_works {groups : List RolloutGroup} {previous : Option RolloutGroup} {adv : Advance}
    (h : Knows id owner known s) (hg : s.Has groups) :
    Operation.Works id owner stops (walk (some f) now previous groups r adv) (fun _ _ => True)
      known s := by
  induction groups generalizing previous adv known s with
  | nil =>
    refine .bind (.ofExcept h) fun r' _ _ hk _ => ?_
    exact .bind (saveRollout_works hf hk) fun _ _ _ hk _ => .pure hk trivial
  | cons g rest ih =>
    obtain ⟨hfirst, hrest⟩ := List.forall_mem_cons.1 hg
    refine .bind ((enter_works hf h (List.forall_mem_singleton.2 hfirst)).has hrest)
      fun entry known' s' hk hentry => ?_
    obtain ⟨hentry, hrest⟩ := hentry
    cases entry with
    | passed => exact ih hk hrest
    | blocked => exact .pure hk trivial
    | running g started =>
      dsimp only
      cases hend : g.settle? g.verdict now with
      | none => exact .pure hk trivial
      | some settled =>
        have hid : settled.id = g.id := id_of_settle? hend
        have hsettled : s'.Has [settled] := by
          refine List.forall_mem_singleton.2 ?_
          rw [hid]
          exact hentry g List.mem_cons_self
        dsimp only
        split
        · refine .bind ((Operation.Works.ofExcept hk).has hsettled) fun r' _ _ hk hsettled => ?_
          exact .bind (.mapError (putRolloutWithGroups_works hf hk hsettled.2))
            fun _ _ _ hk _ => .pure hk trivial
        · exact .bind (.mapError ((putGroup_works hf hk hsettled).has hrest))
            fun _ _ _ hk hrest => ih hk hrest.2

lemma begin?_works (h : Knows id owner known s) :
    Operation.Works id owner stops (begin? (some f) now r) (fun _ _ => True) known s := by
  unfold begin?
  split
  · split
    · refine .bind (.ofExcept h) fun r' _ _ hk _ => ?_
      exact .bind (saveRollout_works hf hk) fun _ _ _ hk _ => .pure hk trivial
    · exact .pure h trivial
  · exact .pure h trivial

lemma takeUp_works (h : Knows id owner known s) :
    Operation.Works id owner stops (takeUp (some f) now r) (fun _ _ => True) known s := by
  unfold takeUp
  split
  · refine .bind (.ofExcept h) fun r' _ _ hk _ => ?_
    exact .bind (saveRollout_works hf hk) fun _ _ _ hk _ => .pure hk trivial
  · exact .pure h trivial

/-- Driving a rollout forward begins with a look at its row. -/
lemma advance_works :
    Operation.Works id owner stops (advance (some f) id now) (fun _ _ => True) known s := by
  refine .bind requireRollout_works fun r _ _ hk _ => ?_
  dsimp only
  split
  · exact .pure hk trivial
  refine .bind (begin?_works hf hk) fun found _ _ hk _ => ?_
  cases found with
  | none => exact .pure hk trivial
  | some r =>
    refine .bind (takeUp_works hf hk) fun r _ _ hk _ => ?_
    split
    · refine .bind (listGroups_works hk) fun groups _ _ hk hgroups => ?_
      exact .bind (walk_works hf hk hgroups) fun p _ _ hk _ => .pure hk trivial
    · exact .pure hk trivial

lemma extend_works {targets : List TargetId} (h : Knows id owner known s) :
    Operation.Works id owner stops (Live.extend (some f) g targets now) (fun _ _ => True)
      known s := by
  have hcommit : Operation.Works id owner stops
      (Operation.commit (some f) (appendTargets g.id targets)) (fun _ _ => True) known s :=
    .commit hf (.appendTargets _ _) h fun p _ _ _ hb hrun =>
      ⟨(appendTargets_respects hb hrun).1, trivial⟩
  refine .bind (.mapError hcommit) fun p _ _ hk _ => ?_
  dsimp only
  split
  · exact .bind (issue_works hf hk) fun _ _ _ hk _ => .pure hk trivial
  · exact .pure hk trivial

omit hf in
/-- A look at what a filter selects takes nothing away from what is known. -/
lemma resolve_works {op : Operation ε α} (hreads : Program.Reads (ExceptT.run op))
    (h : Knows id owner known s) :
    Operation.Works id owner stops op (fun _ _ => True) known s :=
  Program.Careful.of_reads hreads h fun result _ _ hk _ =>
    match result with
    | .ok _ => ⟨hk, trivial⟩
    | .error _ => trivial

/-- Resolving a live rollout again begins with a look at its row. -/
lemma refresh_works {live : Live} (hresolver : live.resolver.Reads) :
    Operation.Works id owner stops (live.refresh (some f) id now) (fun _ _ => True) known s := by
  refine .bind requireRollout_works fun r _ _ hk _ => ?_
  split
  · refine .bind (listGroups_works hk) fun groups _ _ hk _ => ?_
    refine .bind (resolve_works (hresolver r.targetFilter) hk) fun resolved _ _ hk _ => ?_
    dsimp only
    split
    · exact .bind (saveRollout_works hf hk) fun _ _ _ hk _ => .pure hk trivial
    · refine .bind (extend_works hf hk) fun _ _ _ hk _ => ?_
      exact .bind (saveRollout_works hf hk) fun _ _ _ hk _ => .pure hk trivial
  · exact .pure hk trivial

end

/-! ## The lease itself -/

/-- Whatever the name on a lease is behind a holder's word on it, it was there before. -/
lemma bears_of_upkept {key other : String} {token : Nat} {found : Option Lease} {s' : Store}
    (h : Upkept key owner token s found s') (hb : s'.Bears key other) : s.Bears key other := by
  cases h with
  | kept hl howner htoken until_ =>
    obtain ⟨l', hl', hname⟩ := hb
    rw [lease?_withLease_self] at hl'
    obtain rfl := Option.some.inj hl'
    exact ⟨_, hl, hname⟩
  | lost => exact hb

/-- A lease that is granted bears the owner's name. -/
lemma bears_of_acquired {key other : String} {now ttl : Nat} {grant : LeaseGrant} {s' : Store}
    (h : Acquired key owner now ttl s grant s') (hne : other ≠ owner) (hb : s'.Bears key other) :
    s.Bears key other := by
  obtain ⟨l', hl', hname⟩ := hb
  cases h with
  | first hnew | next hl hexpired | again hl hvalid howner =>
    rw [lease?_withLease_self] at hl'
    obtain rfl := Option.some.inj hl'
    exact absurd hname.symm hne
  | held hl hvalid howner => exact ⟨l', hl', hname⟩

/-- A careful operation of which nothing is promised for its end. -/
def Operation.Beside (id : RolloutId) (owner : String) (stops : Prop) (op : Operation ε α)
    (known : Known) (s : Store) : Prop :=
  Operation.Careful id owner stops op (fun _ _ _ => True) (fun _ _ _ => True) known s

lemma Operation.Works.beside {op : Operation ε α} {Q : α → Store → Prop}
    (h : Operation.Works id owner stops op Q known s) :
    Operation.Beside id owner stops op known s :=
  Operation.Careful.mono h (fun _ _ _ _ => trivial) fun _ _ _ h => h

lemma Operation.Beside.bind {op : Operation ε α} {g : α → Operation ε β}
    (h : Operation.Beside id owner stops op known s)
    (hg : ∀ a known s, Operation.Beside id owner stops (g a) known s) :
    Operation.Beside id owner stops (op >>= g) known s :=
  Operation.Careful.bind
    (Operation.Careful.mono h (fun a known s _ => hg a known s) fun _ _ _ h => h)

lemma Operation.Beside.attempt {op : Operation ε α}
    (h : Operation.Beside id owner stops op known s) :
    Operation.Beside id owner stops
      (ExceptT.lift (ExceptT.run op) : Operation ε' (Except ε α)) known s :=
  Operation.Careful.attempt h

lemma Operation.Beside.mapError {op : Operation ε α} {map : ε → ε'}
    (h : Operation.Beside id owner stops op known s) :
    Operation.Beside id owner stops (Operation.mapError map op) known s :=
  Operation.Careful.mapError h

lemma Operation.Beside.ofExcept (r : Except ε α) (known : Known) (s : Store) :
    Operation.Beside id owner stops (Operation.ofExcept r) known s :=
  Operation.Careful.ofExcept (fun _ _ => trivial) fun _ _ => trivial

/-- The owner takes the rollout's lease. -/
lemma acquire_beside (fence : Option Fence) (now ttl : Nat) (known : Known) (s : Store) :
    Operation.Beside id owner stops
      (Operation.commit fence (acquireLease (Lease.rolloutKey id) owner now ttl)) known s :=
  .commit_lease (.acquireLease _ _ _ _)
    (fun _ _ _ hrun _ hne hb => bears_of_acquired (acquireLease_eq_ok hrun) hne hb)
    (fun _ _ _ _ _ => trivial) fun _ _ _ => trivial

/-- An owner gives up a holding of its own. -/
lemma release_beside (fence : Option Fence) (token : Nat) (known : Known) (s : Store) :
    Operation.Beside id owner stops
      (Operation.commit fence (releaseLease (Lease.rolloutKey id) owner token)) known s := by
  refine .commit_lease (.releaseLease _ _ _) (fun s' _ s'' hrun other _ hb => ?_)
    (fun _ _ _ _ _ => trivial) fun _ _ _ => trivial
  obtain ⟨found, hup, -⟩ := releaseLease_eq_ok hrun
  exact bears_of_upkept hup hb

/-- An owner extends a holding of its own and goes on knowing what it knew. -/
lemma renew_works {fence : Option Fence} {token now ttl : Nat} (h : Knows id owner known s) :
    Operation.Works id owner stops
      (Operation.commit fence (renewLease (Lease.rolloutKey id) owner token now ttl))
      (fun _ _ => True) known s := by
  refine .commit_lease (.renewLease _ _ _ _ _)
    (fun _ _ _ hrun _ _ hb => bears_of_upkept (renewLease_eq_ok hrun) hb)
    (fun found s' s'' hs hrun => ⟨fun hb => ?_, trivial⟩) fun _ _ _ => trivial
  have hsame := Transaction.Calm.renewLease _ _ _ _ _ s' found s'' hrun
  rw [hsame.rollouts]
  exact hs.knows h (bears_of_upkept (renewLease_eq_ok hrun) hb)

/-! ## Whole steps and commands -/

namespace Scheduler

variable {sch : Scheduler} {now ttl : Nat} {held : Guard}

/-- A scheduler takes the rollout's lease, and its guard names the holding. -/
lemma acquire_careful {Q : Guard → Known → Store → Prop} {E : SchedulerError → Known → Store → Prop}
    (hlock : sch.lock = .ofStore owner ttl)
    (hQ : ∀ held known s, held.fence.IsOf id owner → Q held known s)
    (hE : ∀ e known s, E e known s) :
    Operation.Careful id owner stops (sch.lock.acquire id) Q E known s := by
  rw [hlock]
  refine .bind (.now fun now => .bind (.mapError ((acquire_beside none now ttl known s).mono
    (fun grant known s _ => ?_) fun e known s _ => hE _ known s)))
  cases grant with
  | granted l => exact .pure (hQ _ known s ⟨rfl, rfl⟩)
  | held l => exact .throw (hE _ known s)

lemma renew_guard_works (hlock : sch.lock = .ofStore owner ttl) (hheld : held.fence.IsOf id owner)
    (h : Knows id owner known s) :
    Operation.Works id owner stops (sch.lock.renew held) (fun p _ => p.2.fence.IsOf id owner)
      known s := by
  have hkey : held.key = Lease.rolloutKey id := hheld.key_eq
  rw [hlock]
  refine .bind (.now h) fun now _ _ hk _ => ?_
  rw [hkey]
  refine .bind (.mapError (renew_works hk)) fun found _ _ hk _ => ?_
  cases found with
  | none => exact .pure hk hheld
  | some l => exact .pure hk ⟨rfl, hheld.owner_eq⟩

lemma release_guard_beside (hlock : sch.lock = .ofStore owner ttl)
    (hheld : held.fence.IsOf id owner) (known : Known) (s : Store) :
    Operation.Beside id owner stops (sch.lock.release held) known s := by
  have hkey : held.key = Lease.rolloutKey id := hheld.key_eq
  rw [hlock]
  refine .bind ?_ fun _ _ _ => trivial
  rw [hkey]
  exact .mapError (release_beside none held.fencing known s)

lemma stepUnder_works (hlock : sch.lock = .ofStore owner ttl)
    (hlive : ∀ live, sch.live = some live → live.resolver.Reads)
    (hheld : held.fence.IsOf id owner) :
    Operation.Works id owner stops (sch.stepUnder id now held) (fun _ _ => True) known s := by
  refine .bind (.mapError (advance_works hheld)) fun adv _ _ hk _ => ?_
  cases hfound : sch.live with
  | none => exact .pure hk trivial
  | some live =>
    refine .bind (renew_guard_works hlock hheld hk) fun p _ _ hk hp => ?_
    obtain ⟨there, held'⟩ := p
    cases there with
    | false => exact .pure hk trivial
    | true =>
      exact .bind (.mapError (refresh_works hp (hlive live hfound))) fun _ _ _ hk _ =>
        .pure hk trivial

/-- **A step of a scheduler is careful.** -/
theorem step_beside (hlock : sch.lock = .ofStore owner ttl)
    (hlive : ∀ live, sch.live = some live → live.resolver.Reads) :
    Operation.Beside id owner stops (sch.step id now) known s := by
  refine Operation.Careful.bind (acquire_careful hlock (fun held known s hheld => ?_)
    fun _ _ _ => trivial)
  have hwork : Operation.Works id owner stops (sch.stepUnder id now held) _ known s :=
    stepUnder_works hlock hlive hheld
  refine Operation.Beside.bind hwork.beside.attempt fun result known s => ?_
  exact .bind (release_guard_beside hlock hheld known s).attempt fun _ => .ofExcept result

/-- **To give a rollout up is careful.** -/
theorem giveUp_beside {e : SchedulerError} (hlock : sch.lock = .ofStore owner ttl) :
    Operation.Beside id owner stops (sch.giveUp id now e) known s := by
  refine Operation.Careful.bind (acquire_careful hlock (fun held known s hheld => ?_)
    fun _ _ _ => trivial)
  have hwork : Operation.Works id owner stops (giveUpUnder id now e held) (fun _ _ => True)
      known s := by
    refine .mapError (.bind requireRollout_works fun r _ _ hk _ => ?_)
    exact .bind (.ofExcept hk) fun r' _ _ hk _ => saveRollout_works hheld hk
  refine Operation.Beside.bind hwork.beside.attempt fun result known s => ?_
  exact .bind (release_guard_beside hlock hheld known s) fun _ => .ofExcept result

end Scheduler

namespace Operator

variable {m : Operator}

/-- An operator takes the lease, reads the rollout, works and gives the lease up. -/
lemma withLease_beside {work : Fence → Rollout → Operation RolloutError α}
    (howner : m.owner = owner)
    (hwork : ∀ (f : Fence) (r : Rollout) (known : Known) (s : Store), f.IsOf id owner →
      Knows id owner known s →
      Operation.Works id owner stops (work f r) (fun _ _ => True) known s) :
    Operation.Beside id owner stops (m.withLease id work) known s := by
  subst howner
  refine Operation.Careful.bind (.now fun now => .bind (.mapError
    ((acquire_beside m.fence now m.leaseTtl known s).mono (fun grant known s _ => ?_)
      fun _ _ _ _ => trivial)))
  cases grant with
  | held l => exact .throw trivial
  | granted l =>
    have hheld : Fence.IsOf ⟨Lease.rolloutKey id, m.owner, l.fencing⟩ id m.owner := ⟨rfl, rfl⟩
    have hread : Operation.Works id m.owner stops (get id >>= work _) (fun _ _ => True) known s :=
      .bind requireRollout_works fun r known s hk _ => hwork _ r known s hheld hk
    refine Operation.Beside.bind hread.beside.attempt fun result known s => ?_
    exact .bind (release_beside m.fence l.fencing known s).attempt fun _ => .ofExcept result

lemma id_triggered (g : RolloutGroup) (now : Nat) : ((g.trigger? now).getD g).id = g.id := by
  unfold RolloutGroup.trigger?
  split <;> rfl

/-- **A command that moves a rollout is careful.** -/
theorem command_beside {c : Command} (howner : m.owner = owner) :
    Operation.Beside id owner stops (m.command id c) known s := by
  refine withLease_beside howner fun f r _ _ hf hk => .bind (.nowSeconds hk) fun now _ _ hk _ => ?_
  refine .bind (.ofExcept hk) fun r _ _ hk _ => ?_
  exact .bind (saveRollout_works hf hk) fun _ _ _ hk _ => .pure hk trivial

/-- **To go on with a paused rollout is careful.** -/
theorem resume_beside (howner : m.owner = owner) :
    Operation.Beside id owner stops (m.resume id) known s := by
  refine withLease_beside howner fun f r _ _ hf hk => .bind (.nowSeconds hk) fun now _ _ hk _ => ?_
  refine .bind (.ofExcept hk) fun r _ _ hk _ => ?_
  refine .bind (listGroups_works hk) fun groups _ s hk hgroups => ?_
  have hacknowledged : s.Has (acknowledged groups) := by
    intro g' hg'
    obtain ⟨g, hg, -, rfl⟩ := mem_acknowledged.1 hg'
    exact hgroups g hg
  exact .bind (.mapError (putRolloutWithGroups_works hf hk hacknowledged)) fun _ _ _ hk _ =>
    .pure hk trivial

/-- **To stop a rollout is careful.** -/
theorem stop_beside (hstops : stops) (howner : m.owner = owner) :
    Operation.Beside id owner stops (m.stop id) known s := by
  rw [eq_true hstops]
  refine withLease_beside howner fun f r _ _ hf hk => .bind (.nowSeconds hk) fun now _ _ hk _ => ?_
  refine .bind (.ofExcept hk) fun r _ s hk _ => ?_
  exact .bind (.mapError (stopRollout_works hf hk)) fun _ _ _ hk _ => .pure hk trivial

/-- **To end the running group is careful.** -/
theorem triggerNext_beside (howner : m.owner = owner) :
    Operation.Beside id owner stops (m.triggerNext id) known s := by
  refine withLease_beside howner fun f r _ _ hf hk => ?_
  dsimp only
  split
  · exact trivial
  refine .bind (listGroups_works hk) fun groups _ s hk hgroups => ?_
  split
  · exact trivial
  rename_i g hfind
  have hstored : s.Has [g] :=
    List.forall_mem_singleton.2 (hgroups g (List.mem_of_find?_eq_some hfind))
  refine .bind ((Operation.Works.nowSeconds hk).has hstored) fun now _ s hk hstored => ?_
  have htriggered : s.Has [(g.trigger? now).getD g] := by
    refine List.forall_mem_singleton.2 ?_
    rw [id_triggered]
    exact hstored.2 g List.mem_cons_self
  exact .bind (.mapError (putGroup_works hf hk htriggered)) fun _ _ _ hk _ => .pure hk trivial

end Operator

end StagedRollout
