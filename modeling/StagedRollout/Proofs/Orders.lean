/-
# Orders that are followed

An operator orders a rollout to move by one command.  While the operator is at work the rollout can
follow this command only, and no command is followed twice in a row, so behind the work the
rollout is in the state that it was in, or it has followed the command once (`Trail.follows`).  If
it has, then the operator is not told that the order was refused (`Happening.Heeds`).
-/
import StagedRollout.Proofs.Operator.Answers
import StagedRollout.Proofs.Runs
import StagedRollout.Proofs.Store.Changes

namespace StagedRollout

open Store

variable {allowed : Intent → Prop} {s s' t t' : Store} {l l' : List Action} {id : RolloutId}
  {c : Command} {w : World} {history : List Action}

/-! ## One command -/

lemma RolloutState.Leads.next {source dest : RolloutState} (h : source.Leads c dest) :
    source.next c = some dest := by
  cases h with
  | delete hdeleting hdeleted => cases source <;> first | rfl | contradiction
  | _ => rfl

lemma RolloutState.Leads.ne {source dest : RolloutState} (h : source.Leads c dest) :
    dest ≠ source := by
  rintro rfl
  exact h.not_again h

/-- Nobody but operators gives this command. -/
def Command.isOrder : Command → Bool
  | .approve | .deny | .pause | .resume | .stop | .delete => true
  | _ => false

/-- Whoever has this intent makes no rollout, and moves rollouts by one command only. -/
def Store.Intent.OnlyOrders (c : Command) : Intent → Prop
  | .create _ _ _ => False
  | .order _ command => command = c
  | _ => True

/-- The rollout is in the same state, or it has followed the command. -/
def Rollout.Follows (c : Command) (r r' : Rollout) : Prop :=
  r'.state = r.state ∨ r.state.Leads c r'.state

lemma Rollout.Follows.refl (r : Rollout) : Follows c r r := .inl rfl

lemma Rollout.Follows.trans {r r' r'' : Rollout} (h : Follows c r r') (h' : Follows c r' r'') :
    Follows c r r'' := by
  rcases h with heq | hleads
  · rcases h' with heq' | hleads'
    · exact .inl (heq'.trans heq)
    · exact .inr (heq ▸ hleads')
  · rcases h' with heq' | hleads'
    · exact .inr (heq' ▸ hleads)
    · exact absurd hleads' hleads.not_again

lemma Store.Step.follows (hs : Step allowed s s') (honly : ∀ d, allowed d → d.OnlyOrders c)
    (id : RolloutId) : Option.Rel (Rollout.Follows c) (s.rollout? id) (s'.rollout? id) := by
  have hchange := hs.rollout id
  generalize s.rollout? id = row at hchange ⊢
  generalize s'.rollout? id = row' at hchange ⊢
  cases hchange with
  | same => exact rel_refl .refl row
  | created hmay => exact (honly _ hmay).elim
  | ordered hmay hobeys =>
    obtain rfl := honly _ hmay
    exact .some (.inr hobeys.leads)
  | resolved => exact .some (.inl rfl)

/-- **Where one command can be followed only, it is followed once at most.** -/
theorem Trail.follows (h : Trail (Step allowed) s l s') (honly : ∀ d, allowed d → d.OnlyOrders c)
    (id : RolloutId) : Option.Rel (Rollout.Follows c) (s.rollout? id) (s'.rollout? id) := by
  induction h with
  | nil s => exact rel_refl .refl _
  | cons hs _ ih => exact rel_trans (R := Rollout.Follows c) .trans (hs.follows honly id) ih

/-- A command that is followed on the way was not followed before and is not followed again. -/
lemma Trail.leads {r r' : Rollout} (h : Trail (Step allowed) s l t)
    (honly : ∀ d, allowed d → d.OnlyOrders c) (hr : t.rollout? id = some r)
    (hr' : t'.rollout? id = some r') (hleads : r.state.Leads c r'.state)
    (h' : Trail (Step allowed) t' l' s') :
    ∃ first last, s.rollout? id = some first ∧ s'.rollout? id = some last ∧
      first.state = r.state ∧ last.state = r'.state := by
  have hbefore := h.follows honly id
  have hbehind := h'.follows honly id
  rw [hr] at hbefore
  rw [hr'] at hbehind
  generalize s.rollout? id = row at hbefore ⊢
  generalize s'.rollout? id = row' at hbehind ⊢
  cases hbefore with
  | @some first _ hfirst =>
    cases hbehind with
    | @some _ last hlast =>
      refine ⟨first, last, rfl, rfl, ?_, ?_⟩
      · exact hfirst.elim Eq.symm fun h => absurd hleads h.not_again
      · exact hlast.elim (·) fun h => absurd h hleads.not_again

/-! ## Answers -/

namespace Activity

/-- The operation by which an operator makes or moves a rollout. -/
def operation? : Activity → Option (Operation RolloutError Rollout)
  | create m resolver n => some (m.create resolver n)
  | approve m id => some (m.approve id)
  | deny m id => some (m.deny id)
  | start m id => some (m.start id)
  | pause m id => some (m.pause id)
  | resume m id => some (m.resume id)
  | stop m id => some (m.stop id)
  | delete m id => some (m.delete id)
  | _ => none

variable {a : Activity} {op : Operation RolloutError Rollout}

lemma program_eq (hop : a.operation? = some op) : a.program = ofOperation op := by
  cases a <;> simp only [operation?, Option.some.injEq, reduceCtorEq] at hop <;>
    exact hop ▸ rfl

/-- Whoever gives an order is answered. -/
lemma exists_operation (horder : a.order? = some (id, c)) : ∃ op, a.operation? = some op := by
  cases a with
  | approve | deny | start | pause | resume | stop | delete => exact ⟨_, rfl⟩
  | _ => simp [order?] at horder

/-- An order is refused as a whole. -/
lemma answers (h : Keyed s) (horder : a.order? = some (id, c)) (hop : a.operation? = some op) :
    Operation.Answers s op (fun _ _ => True) s := by
  cases a with
  | approve m id | deny m id | start m id | pause m id | delete m id =>
    obtain rfl := Option.some.inj hop
    exact Operation.Under.mono (Operator.command_answers h _) (fun _ _ _ => trivial)
      fun _ _ hs => hs
  | resume m id =>
    obtain rfl := Option.some.inj hop
    exact Operator.resume_answers
  | stop m id =>
    obtain rfl := Option.some.inj hop
    exact Operator.stop_answers
  | _ => simp [order?] at horder

/-- An operator who gives an order moves rollouts by this command only. -/
lemma May.onlyOrders {d : Intent} (h : a.May d) (horder : a.order? = some (id, c)) :
    d.OnlyOrders c := by
  cases h with
  | order hsame =>
    obtain ⟨-, rfl⟩ := Prod.mk.inj (Option.some.inj (hsame.symm.trans horder))
    exact rfl
  | drive ha => cases ha <;> simp [order?] at horder
  | _ => simp [order?] at horder

/-- A command that nobody but operators gives, was ordered. -/
lemma May.order?_eq {r : Rollout} (h : a.May (.order r c)) (hc : c.isOrder = true) :
    a.order? = some (r.id, c) := by
  cases h with
  | order horder => exact horder
  | drive _ hd => cases hd <;> simp [Command.isOrder] at hc
  | giveUp | purge => simp [Command.isOrder] at hc

end Activity

namespace Happening

variable {h : Happening}

/-- What an operator is answered, if there is an answer: whoever is cut off gets none. -/
def answer? (h : Happening) (w : World) : Option (Except RolloutError Rollout) :=
  match h.limit with
  | none => h.activity.operation?.map fun op => ((ExceptT.run op).run h.surroundings w).1
  | some _ => none

/-- An operator orders a rollout to move by a command, and the rollout follows it.  Unless the
operator is cut off, the answer is not a refusal. -/
structure Heeds (h : Happening) (w : World) (id : RolloutId) (c : Command) : Prop where
  order : h.activity.order? = some (id, c)
  row : ∃ r r', Table.read w.store.rollouts id = .ok (some r) ∧
    Table.read (h.perform w).store.rollouts id = .ok (some r') ∧
    r.state.next c = some r'.state
  answer : h.limit = none → ∃ r, h.answer? w = some (.ok r)

/-- Whoever is not cut off is answered. -/
lemma exists_answer {op : Operation RolloutError Rollout} (hlimit : h.limit = none)
    (hop : h.activity.operation? = some op) (w : World) : ∃ answer, h.answer? w = some answer := by
  rw [answer?, hlimit, hop]
  exact ⟨_, rfl⟩

/-- An answer is the value of the operation, and what the operation did is all that happened. -/
lemma answer?_eq_some {answer : Except RolloutError Rollout} (hanswer : h.answer? w = some answer) :
    ∃ op, h.activity.operation? = some op ∧
      (ExceptT.run op).run h.surroundings w = (answer, h.perform w) := by
  unfold answer? at hanswer
  split at hanswer
  · rename_i hlimit
    obtain ⟨op, hop, rfl⟩ := Option.map_eq_some_iff.1 hanswer
    refine ⟨op, hop, ?_⟩
    rw [perform, hlimit, Activity.program_eq hop, Activity.ofOperation, Program.run_bind]
    rfl
  · simp at hanswer

/-- What an operation promises is true of the answer and of the store behind it. -/
lemma of_answers {op : Operation RolloutError Rollout} {Q : Rollout → Store → Prop}
    {answer : Except RolloutError Rollout} (hop : h.activity.operation? = some op)
    (hanswers : Operation.Answers w.store op Q w.store) (hanswer : h.answer? w = some answer) :
    match answer with
    | .ok r => Q r (h.perform w).store
    | .error _ => SameProgress w.store (h.perform w).store := by
  obtain ⟨op', hop', hrun⟩ := answer?_eq_some hanswer
  obtain rfl : op' = op := Option.some.inj (hop'.symm.trans hop)
  have henv : ∀ a s, Terms.silent.meanwhile s (h.surroundings.deliver a s).2 := fun _ _ => trivial
  have hend := (Program.Under.run henv hanswers).2
  rw [hrun] at hend
  cases answer <;> exact hend

/-- **An order that a rollout has followed is not refused.** -/
theorem heeds_of_leads {r r' : Rollout} (hs : Sound w.store)
    (horder : h.activity.order? = some (id, c)) (hr : w.store.rollout? id = some r)
    (hr' : (h.perform w).store.rollout? id = some r') (hleads : r.state.Leads c r'.state) :
    h.Heeds w id c where
  order := horder
  row := ⟨r, r', Table.read_eq_some_iff.2 hr, Table.read_eq_some_iff.2 hr', hleads.next⟩
  answer hlimit := by
    obtain ⟨op, hop⟩ := Activity.exists_operation horder
    obtain ⟨answer, hanswer⟩ := exists_answer hlimit hop w
    have hend := of_answers hop (h.activity.answers hs.toKeyed horder hop) hanswer
    cases answer with
    | ok r => exact ⟨r, hanswer⟩
    | error e =>
      -- the store would be as it was before, but the rollout has moved
      have hsame : w.store.rollout? id = some r' := by
        rw [rollout?, ← hend.rollouts]
        exact hr'
      obtain rfl := Option.some.inj (hr.symm.trans hsame)
      exact absurd rfl hleads.ne

/-- An order that a rollout follows on the way is not refused. -/
lemma heeds_of_trail {r r' : Rollout} (hs : Sound w.store)
    (horder : h.activity.order? = some (id, c))
    (hbefore : Trail (Step h.activity.May) w.store l t) (hr : t.rollout? id = some r)
    (hr' : t'.rollout? id = some r') (hleads : r.state.Leads c r'.state)
    (hbehind : Trail (Step h.activity.May) t' l' (h.perform w).store) : h.Heeds w id c := by
  obtain ⟨first, last, hfirst, hlast, hsource, hdest⟩ :=
    hbefore.leads (fun d hd => hd.onlyOrders horder) hr hr' hleads hbehind
  refine heeds_of_leads hs horder hfirst hlast ?_
  rw [hsource, hdest]
  exact hleads

end Happening

/-! ## Runs -/

/-- What becomes of an action first in a happening behind which it is not as before. -/
lemma Run.action_change {run : Run} {h : Happening} {key : ActionId}
    (hne : (run ++ [h]).store.action? key ≠ run.store.action? key) :
    ∃ t t' l l', Trail (Step h.activity.May) run.store l t ∧ Sound t ∧
      Step h.activity.May t t' ∧ t'.action? key ≠ run.store.action? key ∧
      ActionChange h.activity.May t t' (run.store.action? key) (t'.action? key) ∧
      Trail (Step h.activity.May) t' l' (run ++ [h]).store := by
  obtain ⟨t, t', l, l', hbefore, hsame, hstep, hchange, hbehind⟩ :=
    (run.proceeds h).exists_change (·.action? key) hne
  have ht := hbefore.sound run.sound
  have haction := hstep.action ht key
  rw [hsame] at haction hchange
  exact ⟨t, t', l, l', hbefore, ht, hstep, hchange, haction, hbehind⟩

/-- Somewhere in a run the rollout follows an order. -/
def Run.Heeds : Run → World → RolloutId → Command → Prop
  | [], _, _, _ => False
  | h :: rest, w, id, c => h.Heeds w id c ∨ Heeds rest (h.perform w) id c

end StagedRollout
