/-
# Rollouts do not touch each other

What is done for a rollout leaves every other rollout alone, and the devices and the saved filters
(`Errand.spared`).  Steps for two rollouts may be taken in either order
(`Program.Local.swap`), and so may the turns of two rollouts in a cycle.  So a cycle comes to the
same in whatever order it takes its rollouts (`Scheduler.visitAll_perm`).
-/
import StagedRollout.Proofs.Independence.Cycles
import StagedRollout.Proofs.Invariants
import StagedRollout.Proofs.Lease.Activities

namespace StagedRollout

open Store

variable {α β : Type} {env : Surroundings} {a b : RolloutId}

/-! ## One rollout and the others -/

/-- Nothing of a rollout has changed, no device and no saved filter. -/
structure Store.Spared (b : RolloutId) (s s' : Store) : Prop where
  rollout : s'.rollouts.find? b = s.rollouts.find? b
  groups : ∀ key g, g.rolloutId = b → (s'.group? key = some g ↔ s.group? key = some g)
  actions : ∀ key x, x.rolloutId = b → (s'.action? key = some x ↔ s.action? key = some x)
  lease : s'.leases.find? (Lease.rolloutKey b) = s.leases.find? (Lease.rolloutKey b)
  targets : s'.targets = s.targets
  filters : s'.filters = s.filters

namespace Store

variable {s s' : Store}

/-- Rows in a rollout's region are not another rollout's. -/
lemma Agree.spared (h : Agree (.beyond a) s s') (hs : Tidy a s) (hs' : Tidy a s')
    (hab : a ≠ b) : Spared b s s' where
  rollout := h.rollouts b hab.symm
  groups key g hg := by
    by_cases hkey : BelongsTo a key
    · refine iff_of_false (fun hfind => ?_) fun hfind => ?_
      · exact hab ((hs'.group key g hkey (Table.intact?_eq_some_iff.1 hfind)).2.2.symm.trans hg)
      · exact hab ((hs.group key g hkey (Table.intact?_eq_some_iff.1 hfind)).2.2.symm.trans hg)
    · rw [group?, group?, Table.intact?, Table.intact?, h.groups key hkey]
  actions key x hx := by
    by_cases hkey : BelongsTo a key
    · refine iff_of_false (fun hfind => ?_) fun hfind => ?_
      · exact hab ((hs'.action key x hkey (Table.intact?_eq_some_iff.1 hfind)).2.2.2.symm.trans hx)
      · exact hab ((hs.action key x hkey (Table.intact?_eq_some_iff.1 hfind)).2.2.2.symm.trans hx)
    · rw [action?, action?, Table.intact?, Table.intact?, h.actions key hkey]
  lease := h.leases _ fun heq => hab (Lease.rolloutKey_injective heq).symm
  targets := h.targets
  filters := h.filters

/-- The rows of all other rollouts stay tidy. -/
lemma Agree.tidy (h : Agree (.beyond a) s s') (hs' : Tidy a s') (hs : ∀ x, Tidy x s) :
    ∀ x, Tidy x s' := by
  intro x
  by_cases hx : x = a
  · exact hx ▸ hs'
  · exact (hs x).congr (h.other (Ne.symm hx)).rows

end Store

/-- What is done for one rollout: commands, work of schedulers and reports on its actions. -/
inductive Errand (a : RolloutId) (s : Store) : Program Unit → Prop
  | create {m : Operator} {resolver : Resolver} {n : NewRollout} (hname : n.name = a)
      (hresolver : resolver.Reads) : Errand a s (Activity.create m resolver n).program
  | order {x : Activity} {c : Command} (h : x.order? = some (a, c)) : Errand a s x.program
  | triggerNext (m : Operator) : Errand a s (Activity.triggerNext m a).program
  | step {sch : Scheduler} (h : sch.Stored) (now : Nat) :
      Errand a s (Activity.ofOperation (sch.step a now))
  | report {fence : Option Fence} {r : StatusReport} {x : Action}
      (hx : s.action? r.action = some x) (hof : x.rolloutId = a) :
      Errand a s (Activity.report fence r).program

section

variable {watched : Region}

lemma Surroundings.minds_all (env : Surroundings) : env.Minds .all := by
  intro x s t hs
  obtain rfl := hs.eq_of_own_all
  exact ⟨rfl, .refl _ _⟩

/-- Everything is watched. -/
lemma Region.covers_all (fence : Option Fence) : (Region.own .all a).Covers fence :=
  fun _ _ => .inr trivial

/-- A resolver that changes nothing comes to the same in the same store. -/
lemma Resolver.Reads.local_all {resolver : Resolver} (h : resolver.Reads) (henv : env.Still)
    (filter : String) : (resolver filter).Local .all env a fun _ => True :=
  .of_seesAlike henv ((Program.SeesAlike.of_reads (h filter)).mono fun _ _ hs => hs.eq_of_own_all)

lemma Activity.ofOperation_local {ε : Type} {op : Operation ε α}
    (h : op.Local watched env a fun _ => True) :
    (Activity.ofOperation op).Local watched env a fun _ => True := .bind h fun _ _ => .pure trivial

namespace Errand

variable {s : Store} {p : Program Unit}

lemma local_all (h : Errand a s p) (hs : Sound s) (henv : env.Tame .all) :
    p.Local .all env a fun _ => True := by
  cases h with
  | create hname hresolver =>
    exact Activity.ofOperation_local (Operator.create_local henv (Region.covers_all _) hname
      (hresolver.local_all henv.still))
  | @order x c h =>
    cases x with
    | approve m id | deny m id | start m id | pause m id | delete m id =>
      obtain ⟨rfl, -⟩ := Prod.mk.inj (Option.some.inj h)
      exact Activity.ofOperation_local (Operator.command_local henv (Region.covers_all _) _)
    | resume m id =>
      obtain ⟨rfl, -⟩ := Prod.mk.inj (Option.some.inj h)
      exact Activity.ofOperation_local (Operator.resume_local henv (Region.covers_all _))
    | stop m id =>
      obtain ⟨rfl, -⟩ := Prod.mk.inj (Option.some.inj h)
      exact Activity.ofOperation_local (Operator.stop_local henv (Region.covers_all _))
    | _ => cases h
  | triggerNext m =>
    exact Activity.ofOperation_local (Operator.triggerNext_local henv (Region.covers_all _))
  | step hstored now =>
    refine Activity.ofOperation_local (Scheduler.step_local now henv ⟨hstored.lock, ?_⟩)
    exact fun live hlive => (hstored.live live hlive).local_all henv.still
  | report hx hof =>
    subst hof
    obtain ⟨hid, hof⟩ := hs.isOf_action hx
    exact Activity.ofOperation_local (StatusReport.apply_local henv.still (Region.covers_all _)
      (hid ▸ hof.1))

/-- **What is done for a rollout leaves every other one alone.** -/
theorem spared (h : Errand a s p) (hs : Sound s) (hstill : env.Still) (hdiscreet : env.Discreet)
    (hab : a ≠ b) {w : World} (hw : w.store = s) : Spared b s (p.run env w).2.store := by
  subst hw
  have hlocal := h.local_all hs ⟨hstill, hdiscreet, env.minds_all⟩
  obtain ⟨-, -, htwin⟩ := hlocal w w (.refl _ _) (hs.tidy a)
  exact htwin.left.spared (hs.tidy a) htwin.tidy hab

end Errand

end

/-! ## Two rollouts -/

/-- From equal stores two programs come to equal values and stores.  The rows of all rollouts are
tidy, and stay so. -/
def Program.Alike (env : Surroundings) (p q : Program α) : Prop :=
  ∀ w v, v.store = w.store → (∀ x, Tidy x w.store) →
    (q.run env v).1 = (p.run env w).1 ∧ (q.run env v).2.store = (p.run env w).2.store ∧
      ∀ x, Tidy x (p.run env w).2.store

/-- The value and the store that a program comes to. -/
def Program.outcome (env : Surroundings) (p : Program α) (w : World) : α × Store :=
  ((p.run env w).1, (p.run env w).2.store)

/-- Two programs one after the other, with both values. -/
def Program.pair (p : Program α) (q : Program β) : Program (α × β) := do
  let x ← p
  let y ← q
  return (x, y)

namespace Program

lemma run_pair (p : Program α) (q : Program β) (w : World) :
    (p.pair q).run env w = (((p.run env w).1, (q.run env (p.run env w).2).1),
      (q.run env (p.run env w).2).2) := by
  rw [pair, run_bind, run_bind]
  rfl

lemma run_swap (r : Program (α × β)) (w : World) :
    (Prod.swap <$> r).run env w = ((r.run env w).1.swap, (r.run env w).2) := by
  rw [← bind_pure_comp, run_bind]
  rfl

namespace Alike

lemma outcome_eq {p q : Program α} (h : Alike env p q) (w : World) (htidy : ∀ x, Tidy x w.store) :
    q.outcome env w = p.outcome env w :=
  have ⟨hvalue, hstore, _⟩ := h w w rfl htidy
  Prod.ext hvalue hstore

lemma done (v : α) : Alike env (.done v) (.done v) := fun _ _ hv htidy => ⟨rfl, hv, htidy⟩

lemma bind {p q : Program α} {f g : α → Program β} (h : Alike env p q)
    (hfg : ∀ v, Alike env (f v) (g v)) : Alike env (p >>= f) (q >>= g) := by
  intro w v hv htidy
  obtain ⟨hvalue, hstore, htidy'⟩ := h w v hv htidy
  rw [run_bind, run_bind, hvalue]
  exact hfg _ _ _ hstore htidy'

lemma map {p q : Program α} (h : Alike env p q) (f : α → β) : Alike env (f <$> p) (f <$> q) := by
  rw [← bind_pure_comp, ← bind_pure_comp]
  exact h.bind fun v => .done (f v)

lemma trans {p q r : Program α} (h : Alike env p q) (h' : Alike env q r) : Alike env p r := by
  intro w v hv htidy
  obtain ⟨hvalue, hstore, htidy'⟩ := h w w rfl htidy
  obtain ⟨hvalue', hstore', -⟩ := h' w v hv htidy
  exact ⟨hvalue'.trans hvalue, hstore'.trans hstore, htidy'⟩

end Alike

namespace Local

variable {p : Program α} {q : Program β} {P : α → Prop} {Q : β → Prop}

lemma alike (hp : p.Local .none env a P) : Alike env p p := by
  intro w v hv htidy
  obtain ⟨hvalue, -, htwin⟩ := hp w v (hv ▸ .refl _ _) (htidy a)
  refine ⟨hvalue, htwin.alike.eq ?_, htwin.left.tidy htwin.tidy htidy⟩
  exact htwin.left.symm.trans (hv ▸ htwin.right)

/-- **Programs on two rollouts may be run in either order.** -/
theorem swap (hp : p.Local .none env a P) (hq : q.Local .none env b Q) (hab : a ≠ b) :
    Alike env (p.pair q) (Prod.swap <$> q.pair p) := by
  intro w v hv htidy
  have htidy' : ∀ x, Tidy x v.store := hv ▸ htidy
  -- neither of them sees whether the other one was run before
  have hbefore : Agree (.own .none a) w.store (q.run env v).2.store :=
    hv ▸ ((hq v v (.refl _ _) (htidy' b)).2.2.left.other hab.symm)
  obtain ⟨hfirst, -, hp'⟩ := hp w (q.run env v).2 hbefore (htidy a)
  have hbehind : Agree (.own .none b) v.store (p.run env w).2.store := hv ▸ hp'.left.other hab
  obtain ⟨hsecond, -, hq'⟩ := hq v (p.run env w).2 hbehind (htidy' b)
  rw [run_swap, run_pair, run_pair]
  refine ⟨Prod.ext hfirst hsecond.symm, ?_, ?_⟩
  · exact Agree.diamond hab hp'.left hq'.right (hv ▸ hq'.left) hp'.right hp'.alike hq'.alike
  · exact hq'.right.tidy hq'.tidy_right (hp'.left.tidy hp'.tidy htidy)

end Local

end Program

/-! ## Cycles -/

/-- Resolving filters changes nothing, and looks at devices and saved filters only. -/
def Resolver.ReadsRegistry (resolver : Resolver) : Prop :=
  ∀ filter, (resolver filter).SeesAlike SameRegistry

lemma Resolver.ofStore_readsRegistry [Wildcard.Limit] : Resolver.ReadsRegistry .ofStore := by
  intro filter
  refine .bind ?_ fun source => .bind trivial fun expr =>
    .bind (.mapError (.read fun s t h => ?_)) fun targets => trivial
  · unfold expand
    split
    · refine .bind (.mapError (.read fun s t h => ?_)) fun found => ?_
      · rw [h.2]
      · cases found <;> trivial
    · trivial
  · rw [listTargets, listTargets, h.1]

namespace Scheduler

/-- A scheduler keeps its leases in the store, and its resolver looks at devices and saved filters
only. -/
structure Plain (sch : Scheduler) : Prop where
  lock : ∃ owner ttl, sch.lock = .ofStore owner ttl
  live : ∀ live, sch.live = some live → live.resolver.ReadsRegistry

variable {sch : Scheduler} {now : Nat} {id : RolloutId}

lemma Plain.confined (h : sch.Plain) (henv : env.Still) : sch.Confined .none env id where
  lock := h.lock
  resolver live hlive filter := .of_seesAlike henv ((h.live live hlive filter).mono
    fun _ _ hs => ⟨hs.targets, hs.filters⟩)

/-- What a cycle remembers and counts behind the turns of two rollouts. -/
def behind (retries : Retries) (report : CycleReport) (x y : RolloutId)
    (turns : (Option Retry × CycleReport) × (Option Retry × CycleReport)) : Retries × CycleReport :=
  ((retries.remember x turns.1.1).remember y turns.2.1,
    (report.add turns.1.2).add turns.2.2)

lemma behind_swap (retries : Retries) (report : CycleReport) {x y : RolloutId} (hxy : x ≠ y)
    (turns : (Option Retry × CycleReport) × (Option Retry × CycleReport)) :
    behind retries report y x turns.swap = behind retries report x y turns :=
  Prod.ext (retries.remember_comm hxy _ _).symm (report.add_right_comm _ _)

/-- Two rollouts in a cycle. -/
lemma visit_visit (retries : Retries) (report : CycleReport) {x y : RolloutId} (hxy : x ≠ y) :
    (do
      let (retries, report) ← sch.visit now x retries report
      sch.visit now y retries report) =
      behind retries report x y <$>
        (sch.turn now x (retries.find? x)).pair (sch.turn now y (retries.find? y)) := by
  rw [visit_eq_turn, Program.pair, ← bind_pure_comp, bind_assoc, bind_assoc]
  refine congrArg _ (funext fun ⟨retry, counted⟩ => ?_)
  -- what is remembered of the second rollout is as it was
  have hfind : (retries.remember x retry).find? y = retries.find? y := by
    rw [Retries.find?_remember, if_neg hxy.symm]
  change sch.visit now y (retries.remember x retry) (report.add counted) = _
  rw [visit_eq_turn, hfind, bind_assoc]
  rfl

/-- A cycle looks which rollouts there are, and takes its candidates. -/
lemma outcome_cycle {w : World} {rollouts : List Rollout} {retries : Retries}
    (hlist : w.store.listRollouts = .ok rollouts) :
    (sch.cycle now retries).outcome env w =
      (sch.visitAll now (candidates now rollouts) retries .zero).outcome env w := by
  have hlook : (Program.look Store.listRollouts).run env w = (.ok rollouts, w) :=
    Prod.ext hlist rfl
  rw [Program.outcome, cycle, Program.run_bind, hlook]
  rfl

variable (henv : env.Tame .none) (h : sch.Plain) (now)
include henv h

lemma visitAll_alike (ids : List RolloutId) (retries : Retries) (report : CycleReport) :
    Program.Alike env (sch.visitAll now ids retries report)
      (sch.visitAll now ids retries report) := by
  induction ids generalizing retries report with
  | nil => exact .done _
  | cons id rest ih =>
    exact .bind (Program.Local.alike (visit_local now henv (h.confined henv.still))) fun _ => ih _ _

/-- **A cycle takes two rollouts in either order.** -/
lemma visit_visit_alike (retries : Retries) (report : CycleReport) {x y : RolloutId}
    (hxy : x ≠ y) :
    Program.Alike env
      (do
        let (retries, report) ← sch.visit now x retries report
        sch.visit now y retries report)
      (do
        let (retries, report) ← sch.visit now y retries report
        sch.visit now x retries report) := by
  have hswap := Program.Local.swap
    (turn_local now henv (h.confined henv.still) (retries.find? x))
    (turn_local now henv (h.confined henv.still) (retries.find? y)) hxy
  have hmap := hswap.map (behind retries report x y)
  rw [Functor.map_map] at hmap
  rw [visit_visit retries report hxy, visit_visit retries report hxy.symm]
  exact (funext (behind_swap retries report hxy.symm) : _ = behind retries report y x) ▸ hmap

/-- **A cycle comes to the same in whatever order it takes its rollouts.** -/
theorem visitAll_perm {ids ids' : List RolloutId} (hperm : ids.Perm ids') (retries : Retries)
    (report : CycleReport) :
    Program.Alike env (sch.visitAll now ids retries report)
      (sch.visitAll now ids' retries report) := by
  induction hperm generalizing retries report with
  | nil => exact .done _
  | cons id _ ih =>
    exact .bind (Program.Local.alike (visit_local now henv (h.confined henv.still))) fun _ => ih _ _
  | swap x y rest =>
    by_cases hxy : x = y
    · subst hxy
      exact visitAll_alike now henv h _ retries report
    · have hboth := visit_visit_alike now henv h retries report (Ne.symm hxy)
      have hrest := hboth.bind fun p => visitAll_alike now henv h rest p.1 p.2
      rw [bind_assoc, bind_assoc] at hrest
      exact hrest
  | trans _ _ ih ih' => exact (ih retries report).trans (ih' retries report)

end Scheduler

namespace Run

/-- **Work on different rollouts is independent.**  Where messages touch the lease of their action's
rollout at most, what is done for a rollout leaves every other one alone, with its groups, its
actions and its lease, and the devices and the saved filters.  Where moreover what becomes of a
message depends on the rows of its rollout only, steps for two rollouts come to the same values and
the same store in either order, and a cycle comes to the same in whatever order it takes its
candidates. -/
theorem rollouts_independent (run : Run) {a b : RolloutId} (hab : a ≠ b) {env : Surroundings}
    (hstill : env.Still) (hdiscreet : env.Discreet) :
    (∀ p, Errand a run.store p → Spared b run.store (p.run env run.world).2.store) ∧
    (env.Minds .none →
      (∀ (sch sch' : Scheduler) (now now' : Nat), sch.Plain → sch'.Plain →
        let first := ExceptT.run (sch.step a now)
        let second := ExceptT.run (sch'.step b now')
        (Prod.swap <$> second.pair first).outcome env run.world =
          (first.pair second).outcome env run.world) ∧
      ∀ (sch : Scheduler) (now : Nat) (retries : Retries), sch.Plain →
        ∃ rollouts, run.store.listRollouts = .ok rollouts ∧
          ∀ order : List RolloutId, order.Perm (Scheduler.candidates now rollouts) →
            (sch.visitAll now order retries .zero).outcome env run.world =
              (sch.cycle now retries).outcome env run.world) := by
  have htidy : ∀ x, Tidy x run.world.store := run.sound.tidy
  refine ⟨fun p hp => hp.spared run.sound hstill hdiscreet hab rfl, fun hminds => ?_⟩
  have henv : env.Tame .none := ⟨hstill, hdiscreet, hminds⟩
  refine ⟨fun sch sch' now now' h h' => ?_, fun sch now retries h => ?_⟩
  · have hfirst : (sch.step a now).Local .none env a fun _ => True :=
      Scheduler.step_local now henv (h.confined hstill)
    have hsecond : (sch'.step b now').Local .none env b fun _ => True :=
      Scheduler.step_local now' henv (h'.confined hstill)
    exact (Program.Local.swap hfirst hsecond hab).outcome_eq run.world htidy
  · have hlist := run.sound.toKeyed.listRollouts_eq
    refine ⟨_, hlist, fun order horder => ?_⟩
    rw [Scheduler.outcome_cycle hlist]
    exact (Scheduler.visitAll_perm now henv h horder.symm retries .zero).outcome_eq run.world htidy

/-- Two rollouts for the same devices, neither of which has begun. -/
def abreast : Run :=
  registered ++ [making false,
    undisturbed (.create ⟨none, .standard, false, 30000, "operator"⟩ .ofStore
      { plan with name := "q" }) Resolver.ofStore_calm]

/-- The clock stands still, and a device that is told about an action has the rollout's lease
revoked. -/
def revoking : Surroundings where
  clock _ := 8000
  deliver x s := (.ok (), { s with leases := s.leases.erase (Lease.rolloutKey x.rolloutId) })

lemma discreet_revoking : revoking.Discreet := by
  refine fun x s => { Agree.refl _ s with leases := fun key hkey => ?_ }
  exact (OrderedMap.find?_erase ..).trans (if_neg hkey)

lemma minds_revoking : revoking.Minds .none := by
  refine fun x s t h => ⟨rfl, { h with leases := fun key hkey => ?_ }⟩
  simp only [revoking, OrderedMap.find?_erase, h.leases key hkey]

lemma plain_scheduler : scheduler.Plain :=
  ⟨⟨_, _, rfl⟩, fun _ hlive => Option.some.inj hlive ▸ Resolver.ofStore_readsRegistry⟩

lemma stored_scheduler : scheduler.Stored :=
  ⟨⟨_, _, rfl⟩, fun _ hlive => Option.some.inj hlive ▸ Resolver.ofStore_reads⟩

/-- A step starts the one rollout beside the other, and a cycle starts both. -/
theorem rollouts_independent_abreast :
    Spared "q" abreast.store
        ((Activity.ofOperation (scheduler.step "r" 8)).run revoking abreast.world).2.store ∧
      (Prod.swap <$> (ExceptT.run (scheduler.step "q" 8)).pair
          (ExceptT.run (scheduler.step "r" 8))).outcome revoking abreast.world =
        ((ExceptT.run (scheduler.step "r" 8)).pair
          (ExceptT.run (scheduler.step "q" 8))).outcome revoking abreast.world ∧
      (scheduler.visitAll 8 ["r", "q"] .empty .zero).outcome revoking abreast.world =
        (scheduler.cycle 8 .empty).outcome revoking abreast.world := by
  obtain ⟨hspared, hrest⟩ := @rollouts_independent abreast "r" "q" (by decide) revoking
    (fun _ => rfl) discreet_revoking
  obtain ⟨hswap, hcycle⟩ := hrest minds_revoking
  obtain ⟨rollouts, hlist, horder⟩ := hcycle scheduler 8 .empty plain_scheduler
  have hcandidates : abreast.store.listRollouts.map (Scheduler.candidates 8) = .ok ["q", "r"] := by
    cbv
  rw [hlist] at hcandidates
  have hperm : ["r", "q"].Perm (Scheduler.candidates 8 rollouts) :=
    Except.ok.inj hcandidates ▸ .swap "q" "r" []
  exact ⟨hspared _ (.step stored_scheduler 8),
    hswap _ _ _ _ plain_scheduler plain_scheduler, horder _ hperm⟩

example : ((scheduler.cycle 8 .empty).outcome revoking abreast.world).1.2 = ⟨2, 0, 0, 0⟩ := by cbv

end Run

end StagedRollout
