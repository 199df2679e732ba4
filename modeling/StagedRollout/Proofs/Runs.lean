/-
# Runs

A run is a list of things that happen to a store, from an empty one on: operators create rollouts
and give commands, schedulers go through their cycles, devices report, cleanup passes, devices and
saved filters are registered and removed, and leases change hands.  Each of them has a clock and a
dispatcher of its own, and each may be cut off before any of its writes.

What every write keeps, every run keeps: the trail of a run (`Run.trail`) consists of steps, and
between two happenings the world is settled.
-/
import StagedRollout.Mailbox
import StagedRollout.Proofs.Operator.Commands
import StagedRollout.Proofs.Scheduler.Cleanup
import StagedRollout.Proofs.Scheduler.Cycle

namespace StagedRollout

open Store Transaction

variable {allowed : Intent → Prop} {c : Chronicle}

/-! ## Activities -/

/-- Something that somebody does with a store.  Times of cycles, reports and passes are in
seconds. -/
inductive Activity where
  | create (m : Operator) (resolver : Resolver) (n : NewRollout)
  | approve (m : Operator) (id : RolloutId)
  | deny (m : Operator) (id : RolloutId)
  | start (m : Operator) (id : RolloutId)
  | pause (m : Operator) (id : RolloutId)
  | resume (m : Operator) (id : RolloutId)
  | stop (m : Operator) (id : RolloutId)
  | triggerNext (m : Operator) (id : RolloutId)
  | delete (m : Operator) (id : RolloutId)
  /-- A cycle of a scheduler that remembers some failures. -/
  | cycle (s : Scheduler) (now : Nat) (retries : Retries)
  /-- A step for one rollout outside of a cycle. -/
  | advance (fence : Option Fence) (id : RolloutId) (now : Nat)
  /-- A live resolution of one rollout outside of a cycle. -/
  | refresh (live : Live) (fence : Option Fence) (id : RolloutId) (now : Nat)
  | report (fence : Option Fence) (r : StatusReport)
  | cleanup (grace now : Nat)
  | putTarget (t : Target)
  | deleteTarget (id : TargetId)
  | putFilter (f : SavedFilter)
  | deleteFilter (id : String)
  | acquireLease (key owner : String) (now ttl : Nat)
  | renewLease (key owner : String) (token now ttl : Nat)
  | releaseLease (key owner : String) (token : Nat)

namespace Activity

/-- An operation of which only what it does to the world counts. -/
def ofOperation {ε α : Type} (op : Operation ε α) : Program Unit := do
  let _ ← ExceptT.run op
  return ()

/-- A transaction of its own. -/
def ofTransaction {α : Type} (t : Transaction α) : Program Unit :=
  ofOperation (Operation.commit none t)

/-- The program of an activity. -/
def program : Activity → Program Unit
  | create m resolver n => ofOperation (m.create resolver n)
  | approve m id => ofOperation (m.approve id)
  | deny m id => ofOperation (m.deny id)
  | start m id => ofOperation (m.start id)
  | pause m id => ofOperation (m.pause id)
  | resume m id => ofOperation (m.resume id)
  | stop m id => ofOperation (m.stop id)
  | triggerNext m id => ofOperation (m.triggerNext id)
  | delete m id => ofOperation (m.delete id)
  | cycle s now retries => do
    let _ ← s.cycle now retries
    return ()
  | advance fence id now => ofOperation (Progression.advance fence id now)
  | refresh live fence id now => ofOperation (live.refresh fence id now)
  | report fence r => ofOperation (r.apply fence)
  | cleanup grace now => do
    let _ ← Cleanup.pass grace now
    return ()
  | putTarget t => ofTransaction (Transaction.putTarget t)
  | deleteTarget id => ofTransaction (Transaction.deleteTarget id)
  | putFilter f => ofTransaction (Transaction.putFilter f)
  | deleteFilter id => ofTransaction (Transaction.deleteFilter id)
  | acquireLease key owner now ttl => ofTransaction (Transaction.acquireLease key owner now ttl)
  | renewLease key owner token now ttl =>
    ofTransaction (Transaction.renewLease key owner token now ttl)
  | releaseLease key owner token => ofTransaction (Transaction.releaseLease key owner token)

/-- The resolver and the lock that an activity uses leave rollouts, groups and actions alone. -/
def Calm : Activity → Prop
  | create _ resolver _ => resolver.Calm
  | cycle s _ _ => s.lock.Calm ∧ ∀ live, s.live = some live → live.resolver.Calm
  | refresh live _ _ _ => live.resolver.Calm
  | _ => True

/-- The quotas of an activity are allowed. -/
def Within (allowed : Quota → Prop) : Activity → Prop
  | create m _ _ => allowed m.quota
  | cycle s _ _ => ∀ live, s.live = some live → allowed live.quota
  | refresh live _ _ _ => allowed live.quota
  | _ => True

/-! ### What activities are for -/

/-- The rollout that an operator gives a command to, and the command. -/
def order? : Activity → Option (RolloutId × Command)
  | approve _ id => some (id, .approve)
  | deny _ id => some (id, .deny)
  | start _ id => some (id, .start)
  | pause _ id => some (id, .pause)
  | resume _ id => some (id, .resume)
  | stop _ id => some (id, .stop)
  | delete _ id => some (id, .delete)
  | _ => none

/-- A scheduler works at a time: in a cycle, or on one rollout outside of one. -/
inductive WorksAt (now : Nat) : Activity → Prop
  | cycle {s : Scheduler} {retries : Retries} : WorksAt now (.cycle s now retries)
  | advance {fence : Option Fence} {id : RolloutId} : WorksAt now (.advance fence id now)
  | refresh {live : Live} {fence : Option Fence} {id : RolloutId} :
      WorksAt now (.refresh live fence id now)

/-- What the writes of an activity may be meant to do. -/
inductive May : Activity → Intent → Prop
  | create {m : Operator} {resolver : Resolver} {n : NewRollout} :
      May (.create m resolver n)
        (.create n m.quota (n.approvalRequired.getD m.approvalRequired))
  | order {a : Activity} {r : Rollout} {c : Command} (h : a.order? = some (r.id, c)) :
      May a (.order r c)
  | drive {a : Activity} {now : Nat} {d : Intent} (ha : a.WorksAt now)
      (hd : Progression.Drives now d) : May a d
  | giveUp {s : Scheduler} {now : Nat} {retries : Retries} {r : Rollout} :
      May (.cycle s now retries) (.order r .retriesExhausted)
  | joinInCycle {s : Scheduler} {now : Nat} {retries : Retries} {live : Live}
      (h : s.live = some live) : May (.cycle s now retries) (.join live.quota)
  | join {live : Live} {fence : Option Fence} {id : RolloutId} {now : Nat} :
      May (.refresh live fence id now) (.join live.quota)
  | trigger {m : Operator} {id : RolloutId} : May (.triggerNext m id) (.trigger id)
  | report {fence : Option Fence} {r : StatusReport} : May (.report fence r) (.report r.action)
  | reclaim {grace now : Nat} : May (.cleanup grace now) (.reclaim grace now)
  | purge {grace now : Nat} {r : Rollout} : May (.cleanup grace now) (.order r .purged)

/-- Under allowed quotas an activity has such intents only. -/
lemma Within.intent {allowed : Quota → Prop} {a : Activity} {d : Intent} (h : a.Within allowed)
    (hmay : a.May d) : d.Within allowed := by
  cases hmay with
  | create | join => exact h
  | joinInCycle hlive => exact h _ hlive
  | drive _ hd => cases hd <;> trivial
  | order | giveUp | trigger | report | reclaim | purge => trivial

lemma ofOperation_orderly {ε α : Type} {op : Operation ε α}
    (h : Operation.Orderly allowed op (fun _ => Settled) c) :
    Program.Orderly allowed (ofOperation op) (fun _ => Settled) c :=
  .bind (.attempt (h.mono fun _ _ h => .pure h) fun _ _ h => .pure h)

lemma ofTransaction_orderly {α : Type} {t : Transaction α} (ht : t.Calm) (h : Settled c) :
    Program.Orderly allowed (ofTransaction t) (fun _ => Settled) c :=
  ofOperation_orderly ((Operation.Calm.commit ht).orderly h fun _ _ h _ => h)

/-- A status report is safe. -/
lemma report_orderly {fence : Option Fence} {r : StatusReport}
    (hmay : allowed (.report r.action)) (h : Settled c) :
    Operation.Orderly allowed (r.apply fence) (fun _ => Settled) c := by
  refine .mapError ?_
  have hrun := report_run h.sound.toKeyed r.action r.status r.reportedAt
  cases ha : c.store.action? r.action with
  | none =>
    rw [ha] at hrun
    exact .commit_run h hrun (.beside (.refl _)) fun _ h _ => h
  | some a =>
    rw [ha] at hrun
    dsimp only at hrun
    split at hrun
    · exact .commit_run h hrun (.beside (.refl _)) fun _ h _ => h
    rename_i hstatus
    split at hrun
    · exact .commit_run h hrun (.beside (.refl _)) fun _ h _ => h
    rename_i hopen
    have hid := (h.sound.action_key ha).1
    exact .commit_run h hrun (.report (hid ▸ hmay) (hid ▸ ha) hstatus (Bool.not_eq_true _ ▸ hopen))
      fun _ h _ => h

/-- **Every activity is safe**, and does what it may do. -/
theorem orderly {a : Activity} (hcalm : a.Calm) (hmay : ∀ d, a.May d → allowed d)
    (h : Settled c) :
    Program.Orderly allowed a.program (fun _ => Settled) c := by
  have hordered : ∀ {id command}, a.order? = some (id, command) →
      ∀ r : Rollout, r.id = id → allowed (.order r command) := by
    rintro id command horder r rfl
    exact hmay _ (.order horder)
  cases a with
  | create m resolver n =>
    exact ofOperation_orderly (Operator.create_orderly hcalm (hmay _ .create) h)
  | approve m id | deny m id | start m id | pause m id | delete m id =>
    exact ofOperation_orderly (Operator.command_orderly rfl (hordered rfl) h)
  | resume m id => exact ofOperation_orderly (Operator.resume_orderly (hordered rfl) h)
  | stop m id => exact ofOperation_orderly (Operator.stop_orderly (hordered rfl) h)
  | triggerNext m id => exact ofOperation_orderly (Operator.triggerNext_orderly (hmay _ .trigger) h)
  | cycle s now retries =>
    have hs : s.Steady allowed now := ⟨hcalm.1, hcalm.2, fun d hd => hmay d (.drive .cycle hd),
      fun _ hlive => hmay _ (.joinInCycle hlive), fun _ => hmay _ .giveUp⟩
    exact .bind ((Scheduler.cycle_orderly hs h retries).mono fun _ _ h => .pure h)
  | advance fence id now =>
    exact ofOperation_orderly (Progression.advance_orderly
      (fun d hd => hmay d (.drive .advance hd)) h id)
  | refresh live fence id now =>
    exact ofOperation_orderly (Live.refresh_orderly hcalm (hmay _ (.drive .refresh .issue))
      (hmay _ .join) h id)
  | report fence r => exact ofOperation_orderly (report_orderly (hmay _ .report) h)
  | cleanup grace now =>
    have hpass := Cleanup.pass_orderly (hmay _ .reclaim) (fun _ => hmay _ .purge) h
    exact .bind (hpass.mono fun _ _ h => .pure h)
  | putTarget t => exact ofTransaction_orderly (.putTarget t) h
  | deleteTarget id => exact ofTransaction_orderly (.deleteTarget id) h
  | putFilter f => exact ofTransaction_orderly (.putFilter f) h
  | deleteFilter id => exact ofTransaction_orderly (.deleteFilter id) h
  | acquireLease key owner now ttl => exact ofTransaction_orderly (.acquireLease _ _ _ _) h
  | renewLease key owner token now ttl => exact ofTransaction_orderly (.renewLease _ _ _ _ _) h
  | releaseLease key owner token => exact ofTransaction_orderly (.releaseLease _ _ _) h

end Activity

/-! ## Happenings -/

/-- An activity in its surroundings, which is cut off if it would make more than a number of
writes. -/
structure Happening where
  activity : Activity
  surroundings : Surroundings
  limit : Option Nat
  gentle : surroundings.Gentle
  calm : activity.Calm

namespace Happening

/-- The world behind a happening. -/
def perform (h : Happening) (w : World) : World :=
  match h.limit with
  | none => (h.activity.program.run h.surroundings w).2
  | some limit => (h.activity.program.runWrites h.surroundings limit w).2

/-- The actions that a happening creates, in order. -/
def created (h : Happening) (w : World) : List Action :=
  match h.limit with
  | none => h.activity.program.created h.surroundings w
  | some limit => (h.activity.program.cut limit).created h.surroundings w

/-- A happening takes steps, and behind it the world is settled again. -/
lemma trail {h : Happening} {w : World} {history : List Action}
    (hmay : ∀ d, h.activity.May d → allowed d) (hw : Settled (.ofWorld w history)) :
    Trail (Step allowed) w.store (h.created w) (h.perform w).store ∧
      Settled (.ofWorld (h.perform w) (history ++ h.created w)) := by
  have hsafe := h.activity.orderly h.calm hmay hw
  unfold perform created
  cases h.limit with
  | none => exact hsafe.run h.gentle step_of_sameProgress
  | some limit =>
    -- to be cut off is to run the program that ends before the write
    have hcut : Program.Orderly allowed (h.activity.program.cut limit) (fun _ => Settled)
        (.ofWorld w history) :=
      Program.Safe.mono (Program.Safe.cut hsafe limit) fun x _ hx => match x with
        | some () => hx
        | none => hx
    dsimp only
    rw [← Program.run_cut]
    exact Program.Safe.run h.gentle step_of_sameProgress hcut

end Happening

/-! ## Runs -/

/-- Things that happen one after the other. -/
abbrev Run := List Happening

namespace Run

/-- The world behind a run. -/
def after : Run → World → World
  | [], w => w
  | h :: rest, w => after rest (h.perform w)

/-- The actions that a run creates, in order. -/
def createdFrom : Run → World → List Action
  | [], _ => []
  | h :: rest, w => h.created w ++ createdFrom rest (h.perform w)

/-- The world behind a run from an empty store on. -/
def world (run : Run) : World := run.after (.ofStore .empty)

/-- The store behind a run from an empty store on. -/
def store (run : Run) : Store := run.world.store

/-- All actions that a run from an empty store on creates, in order, also those that cleanup
removes later. -/
def created (run : Run) : List Action := run.createdFrom (.ofStore .empty)

/-- All quotas of a run are allowed. -/
def Within (allowed : Quota → Prop) (run : Run) : Prop := ∀ h ∈ run, h.activity.Within allowed

lemma trailFrom {run : Run} {w : World} {history : List Action}
    (hmay : ∀ h ∈ run, ∀ d, h.activity.May d → allowed d) (hw : Settled (.ofWorld w history)) :
    Trail (Step allowed) w.store (run.createdFrom w) (run.after w).store ∧
      Settled (.ofWorld (run.after w) (history ++ run.createdFrom w)) := by
  induction run generalizing w history with
  | nil =>
    refine ⟨.nil w.store, ?_⟩
    rw [createdFrom, List.append_nil]
    exact hw
  | cons h rest ih =>
    obtain ⟨hfirst, hsettled⟩ := h.trail (hmay h List.mem_cons_self) hw
    obtain ⟨hrest, hend⟩ := ih (fun x hx => hmay x (List.mem_cons_of_mem _ hx)) hsettled
    rw [createdFrom, ← List.append_assoc]
    exact ⟨hfirst.append hrest, hend⟩

lemma settled_empty : Settled (.ofWorld (.ofStore .empty) []) := ⟨sound_empty, rfl⟩

lemma within_any (run : Run) : run.Within fun _ => True := fun h _ => by
  unfold Activity.Within
  split <;> simp

/-- **A run takes steps**, and the world behind it is settled. -/
theorem trail {allowed : Quota → Prop} (run : Run) (hwithin : run.Within allowed) :
    Trail (Step (Intent.Within allowed)) .empty run.created run.store ∧
      Settled (.ofWorld run.world run.created) :=
  trailFrom (fun h hh _ hd => (hwithin h hh).intent hd) settled_empty

lemma settled (run : Run) : Settled (.ofWorld run.world run.created) :=
  (run.trail run.within_any).2

lemma after_append (run later : Run) (w : World) :
    (run ++ later).after w = later.after (run.after w) := by
  induction run generalizing w with
  | nil => rfl
  | cons h rest ih => exact ih _

lemma world_append (run later : Run) : (run ++ later).world = later.after run.world :=
  after_append run later _

/-- A run goes on by steps. -/
lemma continues (run later : Run) :
    Trail (Step fun _ => True) run.store (later.createdFrom run.world) (run ++ later).store := by
  rw [store, store, world_append]
  exact (trailFrom (fun _ _ _ _ => trivial) run.settled).1

lemma world_concat (run : Run) (h : Happening) : (run ++ [h]).world = h.perform run.world :=
  run.world_append [h]

lemma store_concat (run : Run) (h : Happening) :
    (run ++ [h]).store = (h.perform run.world).store := by
  rw [store, world_concat]

/-- A run goes on with what one more happening may do. -/
lemma proceeds (run : Run) (h : Happening) :
    Trail (Step h.activity.May) run.store (h.created run.world) (run ++ [h]).store := by
  rw [store_concat]
  exact (h.trail (fun _ hd => hd) run.settled).1

/-- **Every run leaves a sound store.** -/
theorem sound (run : Run) : Sound run.store := run.settled.sound

end Run

end StagedRollout
