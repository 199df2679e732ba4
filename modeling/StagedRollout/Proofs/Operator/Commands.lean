/-
# Operators are safe

What an operator writes when creating a rollout or giving a command is a move.  Commands are given
while holding the rollout's lease, and taking and giving up a lease is calm, so what is left to
show of a command is its work on the rollout (`withLease_orderly`).
-/
import StagedRollout.Operator.Command
import StagedRollout.Proofs.Program.Calm
import StagedRollout.Proofs.Progression.Advance

namespace StagedRollout.Operator

open RolloutGroup Store Transaction Progression

variable {allowed : Intent → Prop} {c : Chronicle} {m : Operator}

/-! ## Creation -/

/-- **Creating a rollout is safe.** -/
theorem create_orderly {resolver : Resolver} {n : NewRollout} (hresolver : resolver.Calm)
    (hmay : allowed (.create n m.quota (n.approvalRequired.getD m.approvalRequired)))
    (h : Settled c) :
    Operation.Orderly allowed (m.create resolver n) (fun _ => Settled) c := by
  refine .bind (.ofExcept h fun _ hcheck => .bind (.mapError (.read h fun found hread => ?_)))
  rw [Table.read_of_undamaged h.sound.rollouts_intact] at hread
  cases found with
  | some r => exact .throw h
  | none =>
    refine .bind ((hresolver n.targetFilter).orderly h fun targets c' h' hs => ?_)
    refine .bind (.ofExcept h' fun plans hplans => .bind (.nowSeconds fun now => ?_))
    refine .bind (.ofExcept h' fun r happly => .bind (.mapError ?_))
    have hrow := Rollout.apply_eq_ok happly
    have hid : r.id = n.name := Rollout.id_of_apply hrow
    -- the name is still free, for resolving the filter leaves rollouts alone
    have hnew : c'.store.rollout? n.name = none := by
      rw [rollout?, hs.rollouts]
      exact Except.ok.inj hread
    have hrun := createRollout_run h'.sound.toKeyed r (n.groupsFrom 0 plans)
    rw [hid, hnew] at hrun
    exact .commit_run h' hrun (.create hmay hcheck hplans hnew hrow) fun c' hc' _ => .pure hc'

/-! ## Commands -/

/-- Work on a rollout that is safe is safe while holding the rollout's lease. -/
lemma withLease_orderly {α : Type} {id : RolloutId}
    {work : Fence → Rollout → Operation RolloutError α} (h : Settled c)
    (hwork : ∀ fence r c', Settled c' → c'.store.rollout? r.id = some r → r.id = id →
      Operation.Orderly allowed (work fence r) (fun _ => Settled) c') :
    Operation.Orderly allowed (m.withLease id work) (fun _ => Settled) c := by
  refine .bind (.now fun now => .bind ((Operation.Calm.mapError
    (.commit (.acquireLease _ _ _ _))).orderly h fun grant c h _ => ?_))
  cases grant with
  | held l => exact .throw h
  | granted l =>
    refine Operation.Orderly.tidied (.bind (requireRollout_orderly h fun r hr => ?_))
      (.commit (.releaseLease _ _ _))
    have hid := (h.sound.rollout_key hr).1
    exact hwork _ r c h (hid ▸ hr) hid

/-- **A plain command is safe.** -/
theorem command_orderly {id : RolloutId} {command : Command} (hc : command.isPlain = true)
    (hmay : ∀ r, r.id = id → allowed (.order r command)) (h : Settled c) :
    Operation.Orderly allowed (m.command id command) (fun _ => Settled) c := by
  refine withLease_orderly h fun _ r _ h hr hid => .bind (.nowSeconds fun _ => ?_)
  refine .bind (.ofExcept h fun _ happly => .bind ?_)
  have hrow := Rollout.apply_eq_ok happly
  exact order_orderly (hmay r hid) h hr hc hrow fun _ h _ => .pure h

/-- **Resuming a paused rollout is safe.** -/
theorem resume_orderly {id : RolloutId} (hmay : ∀ r, r.id = id → allowed (.order r .resume))
    (h : Settled c) :
    Operation.Orderly allowed (m.resume id) (fun _ => Settled) c := by
  refine withLease_orderly h fun fence r c h hr hid => .bind (.nowSeconds fun now => ?_)
  have hresume := hmay r hid
  refine .bind (.ofExcept h fun r' happly => .bind (.mapError (.read h fun groups hlist => ?_)))
  have hrow := Rollout.apply_eq_ok happly
  have hn := h.sound.nodup_groupsOf id
  -- the groups are read after the rollout, and nobody writes in between
  subst hid
  rw [h.sound.listGroups_eq hr] at hlist
  obtain rfl := Except.ok.inj hlist
  have hname : NewRollout.isName r'.id = true := by
    rw [Rollout.id_of_apply hrow]
    exact (h.sound.rollout_key hr).2
  have hstored : ∀ x ∈ acknowledged (c.store.groupsOf r.id), ∃ g, c.store.group? x.id = some g ∧
      x = { g with errorAcknowledged := true } := by
    intro x hx
    obtain ⟨g, hg, -, rfl⟩ := mem_acknowledged.1 hx
    exact ⟨g, (h.sound.mem_groupsOf.1 hg).1, rfl⟩
  have hreplaces : Replaces c.store (acknowledged (c.store.groupsOf r.id)) := by
    refine ⟨nodup_acknowledged hn, fun x hx => ?_⟩
    obtain ⟨g, hg, rfl⟩ := hstored x hx
    exact ⟨g, hg, rfl, rfl, fun _ ht => ht⟩
  have hrun := putRolloutWithGroups_run h.sound.toKeyed hname hreplaces fun x hx old hold => by
    obtain ⟨g, hg, rfl⟩ := hstored x hx
    obtain rfl := Option.some.inj (hg.symm.trans hold)
    exact ⟨rfl, rfl, rfl⟩
  exact .bind (.mapError (.commit_run h hrun (.resume hresume hr hrow) fun c' hc' _ => .pure hc'))

/-- **Stopping a rollout is safe.** -/
theorem stop_orderly {id : RolloutId} (hmay : ∀ r, r.id = id → allowed (.order r .stop))
    (h : Settled c) :
    Operation.Orderly allowed (m.stop id) (fun _ => Settled) c := by
  refine withLease_orderly h fun fence r c h hr hid => .bind (.nowSeconds fun now => ?_)
  refine .bind (.ofExcept h fun r' happly => .bind (.mapError ?_))
  have hrow := Rollout.apply_eq_ok happly
  have hstopped : Sound (c.store.withRollout r') :=
    h.sound.withRow hr (Rollout.id_of_apply hrow) ((h.sound.agrees hr).order rfl hrow)
  have hrun := stopRollout_run hstopped now
  rw [Rollout.id_of_apply hrow] at hrun
  exact .commit_run h hrun (.stop (hmay r hid) hr hrow) fun c' hc' _ => .pure hc'

/-- **Ending the running group is safe.** -/
theorem triggerNext_orderly {id : RolloutId} (hmay : allowed (.trigger id)) (h : Settled c) :
    Operation.Orderly allowed (m.triggerNext id) (fun _ => Settled) c := by
  refine withLease_orderly h fun fence r c h hr hid => ?_
  subst hid
  dsimp only
  split
  · exact .throw h
  rename_i hrun
  refine .bind (.mapError (.read h fun groups hlist => ?_))
  rw [h.sound.listGroups_eq hr] at hlist
  obtain rfl := Except.ok.inj hlist
  cases hfind : (c.store.groupsOf r.id).find? fun g => decide (g.state = .running) with
  | none => exact .throw h
  | some g =>
    have hg := List.mem_of_find?_eq_some hfind
    have hgrun : g.state = .running := by simpa using List.find?_some hfind
    refine .bind (.nowSeconds fun now => ?_)
    have hend : g.trigger? now = some { g with
        state := .finished, outcome := some .triggered, finishedAt := some now } := by
      rw [trigger?, if_pos hgrun]
    rw [hend, Option.getD_some]
    have hput := putGroup_run h.sound.toKeyed (g := { g with
      state := .finished, outcome := some .triggered, finishedAt := some now })
      (h.sound.mem_groupsOf.1 hg).1 rfl rfl rfl
    have hm : Move allowed c.store (c.store.withGroup { g with
        state := .finished, outcome := some .triggered, finishedAt := some now }) :=
      .trigger hmay hr (by simpa using hrun) hg hend
    exact .bind (.mapError (.commit_run h hput hm fun c' hc' _ => .pure hc'))

end StagedRollout.Operator
