/-
# Programs over the store

Schedulers, operators and devices share one store, so an operation is more than its result: at
every transaction somebody else may have come in between, time may have passed, and a process
may end.  An operation is therefore a program: a sequence of effects, each a reading of the
clock, a look at the store, a transaction or a message to a device, with a continuation that
takes the answer.

A program can be run to its end (`Program.run`), cut off before one of its writes
(`Program.runWrites`), or interleaved with others one effect at a time (`Effect.perform`).
-/
import StagedRollout.Store.Basic

namespace StagedRollout

/-- Why a device was not told about an action. -/
structure DispatchError where
  action : ActionId
  reason : String
deriving DecidableEq, Repr

/-- One thing that a program does, with the type of the answer. -/
inductive Effect : Type → Type 1 where
  /-- Asks for the time in milliseconds. -/
  | clock : Effect Nat
  /-- Looks at the store. -/
  | look {α : Type} (view : Store → α) : Effect α
  /-- Runs a transaction, behind a fence if there is one. -/
  | write {α : Type} (fence : Option Fence) (t : Transaction α) : Effect (Except StoreError α)
  /-- Tells a device about an action. -/
  | dispatch (a : Action) : Effect (Except DispatchError Unit)

/-- A sequence of effects that ends with a value. -/
inductive Program (α : Type) : Type 1 where
  | done (a : α)
  | step {β : Type} (e : Effect β) (next : β → Program α)

namespace Program

variable {α β γ : Type}

/-- Goes on with another program behind the value of the first. -/
def andThen : Program α → (α → Program β) → Program β
  | done a, f => f a
  | step e next, f => step e fun b => andThen (next b) f

instance : Monad Program where
  pure := done
  bind := andThen

@[simp] theorem pure_eq (a : α) : (pure a : Program α) = done a := rfl

@[simp] theorem done_bind (a : α) (f : α → Program β) : (done a >>= f) = f a := rfl

@[simp] theorem step_bind (e : Effect γ) (next : γ → Program α) (f : α → Program β) :
    (step e next >>= f) = step e fun c => next c >>= f := rfl

theorem bind_done (p : Program α) : (p >>= done) = p := by
  induction p with
  | done a => rfl
  | step e next ih =>
    rw [step_bind]
    congr 1
    funext c
    exact ih c

theorem bind_assoc (p : Program α) (f : α → Program β) (g : β → Program γ) :
    (p >>= f >>= g) = p >>= fun a => f a >>= g := by
  induction p with
  | done a => rfl
  | step e next ih =>
    simp only [step_bind]
    congr 1
    funext c
    exact ih c

instance : LawfulMonad Program := LawfulMonad.mk' Program bind_done (fun _ _ => rfl) bind_assoc

end Program

/-- What surrounds the programs: the clock, as the reading in milliseconds that each question
gets, and what becomes of a message to a device, which may change the store. -/
structure Surroundings where
  clock : Nat → Nat
  deliver : Action → Store → Except DispatchError Unit × Store

/-- What programs change: the store, how often the clock was read, and the actions that devices
were told about, in order and whether or not they heard of them. -/
structure World where
  store : Store
  readings : Nat
  dispatched : List Action
deriving Repr

namespace World

/-- A world around a store in which nothing has happened. -/
def ofStore (s : Store) : World := ⟨s, 0, []⟩

/-- The clock's answer to the next question, and the world behind the question. -/
def readClock (env : Surroundings) (w : World) : Nat × World :=
  (env.clock w.readings, { w with readings := w.readings + 1 })

end World

/-- Performs one effect. -/
def Effect.perform {α : Type} (env : Surroundings) : Effect α → World → α × World
  | clock, w => w.readClock env
  | look view, w => (view w.store, w)
  | write none t, w =>
    let (answer, s) := w.store.commit none 0 t
    (answer, { w with store := s })
  | write (some f) t, w =>
    let (now, w) := w.readClock env
    let (answer, s) := w.store.commit (some f) now t
    (answer, { w with store := s })
  | dispatch a, w =>
    let (answer, s) := env.deliver a w.store
    (answer, { w with store := s, dispatched := w.dispatched ++ [a] })

/-- Whether an effect is a write. -/
def Effect.isWrite {α : Type} : Effect α → Bool
  | write _ _ => true
  | _ => false

namespace Program

variable {α β : Type}

/-- Runs a program to its end. -/
def run (env : Surroundings) : Program α → World → α × World
  | done a, w => (a, w)
  | step e next, w =>
    let (b, w) := e.perform env w
    (next b).run env w

@[simp] theorem run_done (env : Surroundings) (a : α) (w : World) :
    (done a).run env w = (a, w) := rfl

theorem run_step (env : Surroundings) (e : Effect β) (next : β → Program α) (w : World) :
    (step e next).run env w = (next (e.perform env w).1).run env (e.perform env w).2 := rfl

theorem run_bind (env : Surroundings) (p : Program α) (f : α → Program β) (w : World) :
    (p >>= f).run env w = (f (p.run env w).1).run env (p.run env w).2 := by
  induction p generalizing w with
  | done a => rfl
  | step e next ih =>
    rw [step_bind, run_step, ih, run_step]

/-- Runs a program until it has made a number of writes and would make another one.  There is no
value where it was cut off. -/
def runWrites (env : Surroundings) : Nat → Program α → World → Option α × World
  | _, done a, w => (some a, w)
  | limit, step e next, w =>
    if e.isWrite then
      match limit with
      | 0 => (none, w)
      | limit + 1 =>
        let (b, w) := e.perform env w
        (next b).runWrites env limit w
    else
      let (b, w) := e.perform env w
      (next b).runWrites env limit w

/-- The time in milliseconds. -/
def now : Program Nat := step .clock done

/-- The time in whole seconds. -/
def nowSeconds : Program Nat := return (← now) / 1000

/-- What a view of the store shows. -/
def look (view : Store → α) : Program α := step (.look view) done

/-- Tells a device about an action. -/
def dispatch (a : Action) : Program (Except DispatchError Unit) := step (.dispatch a) done

end Program

/-- A program that ends with a value or with an error. -/
abbrev Operation (ε α : Type) := ExceptT ε Program α

namespace Operation

variable {ε ε' α : Type}

/-- A transaction, behind a fence if there is one. -/
def commit (fence : Option Fence) (t : Transaction α) : Operation StoreError α :=
  ExceptT.mk (.step (.write fence t) .done)

/-- What a view of the store shows, if the rows that it needs can be decoded. -/
def read (view : Store → Except StoreError α) : Operation StoreError α :=
  ExceptT.mk (Program.look view)

/-- The same operation with other errors. -/
def mapError (f : ε → ε') (op : Operation ε α) : Operation ε' α := ExceptT.adapt f op

/-- A value or an error that is known already. -/
def ofExcept (r : Except ε α) : Operation ε α := ExceptT.mk (.done r)

/-- The time in milliseconds. -/
def now : Operation ε Nat := ExceptT.lift Program.now

/-- The time in whole seconds. -/
def nowSeconds : Operation ε Nat := ExceptT.lift Program.nowSeconds

end Operation

end StagedRollout
