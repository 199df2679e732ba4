/-
# References to saved filters

Whoever saves a filter is told how to refer to it: behind an answer to a request to save `id` the
text `@id` should mean the query.  A filter is saved under every text, as it stands.  A reference
is looked up without the white space at its ends, so `@id` means the filter with the id that is left
of `id` without the white space behind it (`Resolver.referredId`).

A filter that was saved and neither overwritten nor removed since is still there, whatever else was
done (`Moment.Made.filter_kept`).  Its query resolves: it was read before it was saved, and no text
that can be read begins like a reference (`parse_reference`).  So `@id` resolves as the query does if
`id` does not end in white space (`resolve_saved`).  With white space at its end the filter is out of
reach: `@id` means another one, or none (`not_resolve_saved`).
-/
import Mathlib
import StagedRollout.Proofs.Filter.Presence
import StagedRollout.Proofs.Lease.Tokens

namespace StagedRollout

open Operation (Ends)

/-! ## References -/

namespace Resolver

/-- The id of the filter that `@id` refers to. -/
def referredId (id : String) : String := String.ofList (id.toList.rdropWhile Text.isBlank)

variable {id : String}

/-- Without white space behind it a filter is referred to by its own id. -/
lemma referredId_eq_self (h : ∀ c ∈ id.toList.getLast?, Text.isBlank c = false) :
    referredId id = id := by
  have hkept : id.toList.rdropWhile Text.isBlank = id.toList := by
    refine List.rdropWhile_eq_self_iff.2 fun hne => ?_
    rw [h _ (List.getLast?_eq_getLast_of_ne_nil hne ▸ rfl)]
    exact Bool.false_ne_true
  rw [referredId, hkept, String.ofList_toList]

lemma referredId_referredId (id : String) : referredId (referredId id) = referredId id := by
  rw [referredId, referredId, String.toList_ofList, List.rdropWhile_idempotent]

lemma rdropWhile_cons {α : Type} {p : α → Bool} {a : α} (h : p a = false) (l : List α) :
    (a :: l).rdropWhile p = a :: l.rdropWhile p := by
  induction l using List.reverseRecOn with
  | nil => simp [List.rdropWhile, h]
  | append_singleton l b ih =>
    rw [← List.cons_append, List.rdropWhile_concat, List.rdropWhile_concat, ih]
    split_ifs <;> rfl

lemma trimChars_reference (id : String) :
    Text.trimChars ("@" ++ id).toList = '@' :: (referredId id).toList := by
  rw [referredId, String.toList_ofList, String.toList_append, ← rdropWhile_cons (by decide)]
  rfl

/-- The query that is saved under an id. -/
def savedQuery (id : String) : Operation RolloutError String := do
  match ← Operation.mapError .persistence (Operation.read fun s => Table.read s.filters id) with
  | some saved => return saved.query
  | none => throw (.invalidFilter (.unknownSaved id))

/-- A reference stands for the query that is saved under its id. -/
lemma expand_reference (id : String) : expand ("@" ++ id) = savedQuery (referredId id) := by
  have hid : String.ofList (referredId id).toList = referredId id := String.ofList_toList
  unfold expand
  rw [trimChars_reference]
  exact congrArg savedQuery hid

end Resolver

/-! ## Queries that can be read -/

namespace TargetFilter

open Text (trimChars isBlank)

lemma IsField.ne_reference {name : String} {field : Field} (h : IsField name field)
    (cs : List Char) : name.toList ≠ '@' :: cs := by
  intro heq
  cases h with
  | id | controllerId | name | tag => simp at heq
  | ofKey => simp at heq

/-- No filter begins with a word that names no field. -/
lemma ofTokens_word_ne_ok [Wildcard.Limit] {name : String}
    (hname : ∀ field, ¬ IsField name field) (pos : Nat) (ts : List PlacedToken) (e : Expr) :
    ofTokens ((pos, .word name) :: ts) ≠ .ok e := by
  cases hfield : fieldOf name with
  | ok field => exact absurd (fieldOf_eq_ok_iff.1 hfield) (hname field)
  | error fault =>
    simp [ofTokens, disjunction, conjunction, separated, primary, next, comparison, hfield,
      Except.error_bind]

/-- **No text that can be read begins like a reference.** -/
lemma parse_reference [Wildcard.Limit] {source : String} {id : List Char}
    (h : trimChars source.toList = '@' :: id) (e : Expr) : parse source ≠ .ok e := by
  -- in front of the sign there is nothing but white space
  obtain ⟨rest, hrest⟩ : ∃ rest, source.toList.dropWhile isBlank = '@' :: rest := by
    obtain ⟨behind, hprefix⟩ := List.rdropWhile_prefix isBlank (source.toList.dropWhile isBlank)
    exact ⟨id ++ behind, by rw [← hprefix, ← List.cons_append, ← h]; rfl⟩
  have hgap : Blank (source.toList.takeWhile isBlank) := fun c hc => List.mem_takeWhile_imp hc
  have hsource : source.toList = source.toList.takeWhile isBlank ++ '@' :: rest := by
    rw [← hrest, List.takeWhile_append_dropWhile]
  intro hparse
  obtain ⟨ts, htokens, htree⟩ := Except.bind_eq_ok hparse
  rw [tokenize, hsource] at htokens
  obtain ⟨fuel, hfuel, hbehind⟩ := tokensFrom_gap hgap ('@' :: rest) _ 0 (Nat.lt_succ_self _)
  rw [hbehind] at htokens
  obtain ⟨fuel, rfl⟩ := Nat.exists_eq_add_one_of_ne_zero (Nat.ne_zero_of_lt hfuel)
  have hlexeme : ∀ pos, lexeme pos '@' rest =
      .ok (.word (String.ofList ('@' :: rest.takeWhile isWordChar)),
        (rest.takeWhile isWordChar).length + 1, rest.dropWhile isWordChar) := fun _ => rfl
  rw [tokensFrom, if_neg (by decide), hlexeme] at htokens
  dsimp only at htokens
  split at htokens
  · cases htokens
  · cases htokens
    exact ofTokens_word_ne_ok (fun field hfield => hfield.ne_reference _ String.toList_ofList)
      _ _ _ htree

end TargetFilter

/-! ## Requests to save and to remove -/

/-- The store with a saved filter. -/
def Store.withFilter (s : Store) (f : SavedFilter) : Store :=
  { s with filters := Table.put s.filters f.id f }

lemma Store.commit_putFilter (s : Store) (now : Nat) (f : SavedFilter) :
    s.commit none now (Transaction.putFilter f) = (.ok (), s.withFilter f) := rfl

namespace Moment

variable {m : Moment} {id query : String}

section

variable [Wildcard.Limit]

/-- At the moment a filter is saved: it is the last one of a request that is answered. -/
def Saves (id query : String) (m : Moment) : Prop :=
  ∃ name l answer,
    Operation.Amid (Request.executeFilter (.save id query name)) (l ++ [m]) (.ok answer)

/-- **A filter is saved where its query can be read**, and then it is written as it stands. -/
theorem saves_iff : m.Saves id query ↔
    (∃ e, TargetFilter.parse query = .ok e) ∧ m.message = none ∧
      ∃ name since, m.after = m.before.withFilter ⟨id, name, query, since⟩ := by
  constructor
  · rintro ⟨name, l, answer, h⟩
    cases hparse : TargetFilter.parse query with
    | error fault =>
      rw [Request.executeFilter, hparse] at h
      cases (Operation.amid_ofExcept h).2
    | ok e =>
      rw [Request.executeFilter, hparse] at h
      -- the clock is read first, and then there is one write
      obtain ⟨now, _, _, rest, -, hl, b, s, s', rest', ⟨t, hcommit⟩, rfl, hend⟩ := h
      obtain ⟨rfl, rfl⟩ := Prod.mk.inj ((Store.commit_putFilter s t _).symm.trans hcommit)
      obtain ⟨rfl, -⟩ := hend
      have hlast : m = ⟨none, s, s.withFilter ⟨id, name.getD id, query, now / 1000⟩⟩ := by
        simpa [Effect.message?] using congrArg List.getLast? hl
      exact ⟨⟨e, rfl⟩, hlast ▸ rfl, name.getD id, now / 1000, hlast ▸ rfl⟩
  · rintro ⟨⟨e, he⟩, hmessage, name, since, hafter⟩
    have hsince : 1000 * since / 1000 = since := Nat.mul_div_cancel_left _ (by decide)
    have hwrite : (Effect.write none (Transaction.putFilter
        ⟨id, name, query, 1000 * since / 1000⟩)).Happens (.ok ()) m.before m.after :=
      ⟨0, by rw [hafter, hsince, Store.commit_putFilter]⟩
    have hm : m = ⟨none, m.before, m.after⟩ := hmessage ▸ rfl
    refine ⟨some name, [⟨none, m.before, m.before⟩], s!"filter @{id} saved", ?_⟩
    rw [Request.executeFilter, he]
    exact ⟨1000 * since, m.before, m.before, _, rfl, rfl, .ok (), m.before, m.after, [], hwrite,
      congrArg ([·]) hm, rfl, rfl⟩

end

/-- At the moment the filter under an id is overwritten or removed. -/
structure Revises (id : String) (m : Moment) : Prop where
  changed : m.after.filters.find? id ≠ m.before.filters.find? id
  requested : (∃ f, f.id = id ∧ (Activity.putFilter f).program.Reaches m) ∨
    (Activity.deleteFilter id).program.Reaches m

/-- Devices and saved filters stay as they are, or one of them is registered or removed. -/
lemma Made.registry (h : m.Made) : m.before.SameRegistry m.after ∨
    ∃ a f, Activity.Registers a f ∧ a.program.Reaches m ∧ m.after = f m.before := by
  obtain ⟨a, ha, hreach⟩ := h
  have hstill : m.after = m.before → m.before.SameRegistry m.after := fun h => h ▸ ⟨rfl, rfl⟩
  rcases a.writes ha with hwrites | ⟨-, hwrites⟩ | ⟨f, hregisters⟩
  · exact .inl ((hwrites.reaches hreach).elim hstill Store.Tends.sameRegistry)
  · exact .inl ((hwrites.reaches hreach).elim hstill Store.Clears.sameRegistry)
  · exact (hregisters.writes.reaches hreach).imp hstill fun h => ⟨a, f, hregisters, hreach, h⟩

/-- **A saved filter stays until it is overwritten or removed**, whatever else is done. -/
theorem Made.filter_kept (h : m.Made) (hkept : ¬ m.Revises id) :
    m.after.filters.find? id = m.before.filters.find? id := by
  by_contra hchanged
  rcases h.registry with hsame | ⟨a, f, hregisters, hreach, hafter⟩
  · exact hchanged (congrArg (OrderedMap.find? · id) hsame.2)
  rw [hafter] at hchanged
  cases hregisters with
  | putTarget | deleteTarget => exact hchanged rfl
  | putFilter f =>
    refine hkept ⟨hafter ▸ hchanged, .inl ⟨f, ?_, hreach⟩⟩
    by_contra hid
    exact hchanged ((OrderedMap.find?_insert _ _ _ _).trans (if_neg (Ne.symm hid)))
  | deleteFilter key =>
    obtain rfl : id = key := by
      by_contra hid
      exact hchanged ((OrderedMap.find?_erase _ _ _).trans (if_neg hid))
    exact hkept ⟨hafter ▸ hchanged, .inr hreach⟩

/-- Rows of devices are written as a whole. -/
lemma Made.targets_undamaged (h : m.Made) (hbefore : Table.Undamaged m.before.targets) :
    Table.Undamaged m.after.targets := by
  rcases h.registry with hsame | ⟨a, f, hregisters, -, hafter⟩
  · rwa [hsame.1]
  rw [hafter]
  cases hregisters with
  | putTarget => exact hbefore.put _ _
  | deleteTarget => exact hbefore.erase _
  | putFilter | deleteFilter => exact hbefore

end Moment

/-! ## What references resolve to -/

namespace Resolver

variable {s : Store} {id query : String} {e : TargetFilter.Expr}

lemma lookup_ends {env : Surroundings} {w : World} {found : Option SavedFilter}
    (hread : Table.read w.store.filters id = .ok found) :
    Ends env (Operation.mapError RolloutError.persistence
      (Operation.read fun s => Table.read s.filters id)) w found w :=
  .mapError (.read hread) _

section

variable [Wildcard.Limit]

/-- What a filter resolves to in a store, whatever the clock shows. -/
def Resolves (s : Store) (filter : String) (result : Except RolloutError OrderedSet) : Prop :=
  ∀ env w, w.store = s → (ExceptT.run (ofStore filter)).run env w = (result, w)

/-- A query that can be read resolves to the devices that pass. -/
lemma resolves_query (h : Table.Undamaged s.targets) (hparse : TargetFilter.parse query = .ok e) :
    Resolves s query (.ok (select e (Table.rows s.targets))) := by
  rintro env w rfl
  have hsource := TargetFilter.expand_ends env w fun id htrim =>
    TargetFilter.parse_reference htrim e hparse
  exact TargetFilter.ofStore_ends hsource hparse h

/-- A reference resolves to the devices that pass the saved query. -/
lemma resolves_reference {saved : SavedFilter} (h : Table.Undamaged s.targets)
    (hsaved : s.filters.find? (referredId id) = some (.intact saved))
    (hparse : TargetFilter.parse saved.query = .ok e) :
    Resolves s ("@" ++ id) (.ok (select e (Table.rows s.targets))) := by
  rintro env w rfl
  have hread : Table.read w.store.filters (referredId id) = .ok (some saved) := by
    rw [Table.read, hsaved]
    rfl
  have hsource : Ends env (expand ("@" ++ id)) w saved.query w := by
    rw [expand_reference]
    exact (lookup_ends hread).bind rfl
  exact TargetFilter.ofStore_ends hsource hparse h

/-- A reference to no saved filter is refused. -/
lemma resolves_unknown (h : s.filters.find? (referredId id) = none) :
    Resolves s ("@" ++ id) (.error (.invalidFilter (.unknownSaved (referredId id)))) := by
  rintro env w rfl
  have hread : Table.read w.store.filters (referredId id) = .ok none := by
    rw [Table.read, h]
  rw [ofStore, expand_reference, savedQuery, ExceptT.run_bind, Program.run_bind, ExceptT.run_bind,
    Program.run_bind, lookup_ends hread]
  rfl

/-- White space behind a reference does not count. -/
lemma resolves_referredId {result : Except RolloutError OrderedSet} :
    Resolves s ("@" ++ id) result ↔ Resolves s ("@" ++ referredId id) result := by
  unfold Resolves ofStore
  rw [expand_reference, expand_reference, referredId_referredId]

lemma Resolves.unique {filter : String} {result result' : Except RolloutError OrderedSet}
    (h : Resolves s filter result) (h' : Resolves s filter result') : result = result' :=
  (Prod.mk.inj ((h Run.quiet (.ofStore s) rfl).symm.trans (h' Run.quiet (.ofStore s) rfl))).1

end

end Resolver

namespace History

open Resolver Run

variable {s : Store} {l l₁ l₂ : List Moment} {m : Moment} {id query : String}

/-- Behind activities on an empty store all rows of devices can be read. -/
lemma targets_undamaged (h : History .empty l s) : Table.Undamaged s.targets :=
  (h.linked.invariant (J := fun s => Table.Undamaged s.targets) nofun
    fun m hm => (h.made m hm).targets_undamaged).2

/-- A saved filter that was neither overwritten nor removed since is in the store. -/
lemma saved [Wildcard.Limit] (h : History .empty (l₁ ++ m :: l₂) s) (hsaves : m.Saves id query)
    (hkept : ∀ p ∈ l₂, ¬ p.Revises id) :
    ∃ saved, s.filters.find? id = some (.intact saved) ∧ saved.query = query := by
  obtain ⟨-, -, name, since, hafter⟩ := Moment.saves_iff.1 hsaves
  obtain ⟨s', -, rfl, hlinked⟩ := Moment.linked_append.1 h.linked
  have hwritten : m.after.filters.find? id = some (.intact ⟨id, name, query, since⟩) := by
    rw [hafter]
    exact (OrderedMap.find?_insert _ _ _ _).trans (if_pos rfl)
  have hmade : ∀ p ∈ l₂, p.Made := fun p hp => h.made p (by simp [hp])
  refine ⟨_, (hlinked.invariant (J := fun s => s.filters.find? id = _) hwritten fun p hp hp' => ?_).2,
    rfl⟩
  exact ((hmade p hp).filter_kept (hkept p hp)).trans hp'

/-- **A reference means the saved query**, if the id does not end in white space.  In any case the
query resolves, and the reference means what the id without white space behind it refers to. -/
theorem resolve_saved [Wildcard.Limit] (h : History .empty (l₁ ++ m :: l₂) s)
    (hsaves : m.Saves id query) (hkept : ∀ p ∈ l₂, ¬ p.Revises id) :
    ∃ selected, Resolves s query (.ok selected) ∧
      ((∀ c ∈ id.toList.getLast?, Text.isBlank c = false) →
        Resolves s ("@" ++ id) (.ok selected)) ∧
      (∀ result, Resolves s ("@" ++ id) result ↔ Resolves s ("@" ++ referredId id) result) ∧
      (s.filters.find? (referredId id) = none →
        Resolves s ("@" ++ id) (.error (.invalidFilter (.unknownSaved (referredId id))))) := by
  obtain ⟨⟨e, hparse⟩, -⟩ := Moment.saves_iff.1 hsaves
  obtain ⟨saved, hsaved, hquery⟩ := h.saved hsaves hkept
  have htargets := h.targets_undamaged
  refine ⟨_, resolves_query htargets hparse, fun hblank => ?_, fun _ => resolves_referredId,
    resolves_unknown⟩
  refine resolves_reference htargets ?_ (hquery.symm ▸ hparse)
  rwa [referredId_eq_self hblank]

end History

/-! ### A filter with white space behind its id -/

namespace Run

/-- A filter for all devices is saved. -/
def saving (id : String) : Happening := undisturbed (.putFilter ⟨id, id, "id==*", 0⟩) trivial

/-- A filter is saved between two registrations. -/
def keeping (id : String) : Run := [registration "a", saving id, registration "b"]

/-- The store behind the first registration. -/
def enrolled : Store := (world [registration "a"]).store

/-- The moment at which the filter is saved. -/
def savingMoment (id : String) : Moment :=
  ⟨none, enrolled, enrolled.withFilter ⟨id, id, "id==*", 0⟩⟩

lemma moments_keeping (id : String) : (keeping id).momentsFrom (.ofStore .empty) =
    [⟨none, .empty, enrolled⟩] ++ savingMoment id ::
      [⟨none, (savingMoment id).after, (world (keeping id)).store⟩] := rfl

lemma history_keeping (id : String) :
    History .empty ([⟨none, .empty, enrolled⟩] ++ savingMoment id ::
      [⟨none, (savingMoment id).after, (world (keeping id)).store⟩]) (world (keeping id)).store := by
  rw [← moments_keeping]
  refine history (fun h hh => ?_) (.ofStore .empty)
  simp only [keeping, List.mem_cons, List.not_mem_nil, or_false] at hh
  rcases hh with rfl | rfl | rfl <;> exact ⟨fun _ _ => rfl, trivial⟩

lemma saves_saving (id : String) : (savingMoment id).Saves id "id==*" := by
  have hparse : TargetFilter.parse "id==*" = .ok (.compare .id .equal "*") := by cbv
  exact Moment.saves_iff.2 ⟨⟨_, hparse⟩, rfl, id, 0, rfl⟩

lemma not_revises_keeping (id : String) :
    ∀ p ∈ [⟨none, (savingMoment id).after, (world (keeping id)).store⟩], ¬ Moment.Revises id p :=
  List.forall_mem_singleton.2 fun h => h.changed rfl

end Run

namespace History

open Resolver Run

theorem resolve_saved_berlin :
    ∃ selected, Resolves (world (keeping "berlin")).store "id==*" (.ok selected) ∧
      Resolves (world (keeping "berlin")).store "@berlin" (.ok selected) := by
  obtain ⟨selected, hquery, hreference, -⟩ := resolve_saved (history_keeping "berlin")
    (saves_saving "berlin") (not_revises_keeping "berlin")
  refine ⟨selected, hquery, hreference fun c hlast => ?_⟩
  obtain rfl : 'n' = c := Option.some.inj hlast
  decide

/-- With white space at the end of its id a saved filter is out of reach. -/
theorem not_resolve_saved :
    ¬ ∀ (s : Store) (l₁ l₂ : List Moment) (m : Moment) (id query : String),
      History .empty (l₁ ++ m :: l₂) s → m.Saves id query → (∀ p ∈ l₂, ¬ p.Revises id) →
        ∃ selected, Resolves s query (.ok selected) ∧ Resolves s ("@" ++ id) (.ok selected) := by
  intro h
  obtain ⟨selected, -, hreference⟩ := h _ _ _ _ _ _ (history_keeping "berlin ")
    (saves_saving "berlin ") (not_revises_keeping "berlin ")
  have hunknown : (world (keeping "berlin ")).store.filters.find? (referredId "berlin ") = none := by
    cbv
  cases hreference.unique (resolves_unknown hunknown)

end History

end StagedRollout
