/-
# Lone stars

A comparison with a lone star asks whether a device has a text for a field at all, or with `!=`
whether it has none.  What a device has is told from the requests alone: under an id stands what
was added last, unless it was removed since (`registered`).  The store holds exactly that behind
any requests (`Registers`), so what a lone star finds is told from the requests too.

No request refuses a text with a line break, and no star stands for one.  A lone star therefore
finds the devices that have a text without a line break for the field (`resolve_loneStar`).  These
are all that have a text where no line break was registered; otherwise some are missed
(`not_testsPresence`).
-/
import Mathlib
import StagedRollout.Proofs.Filter.RoundTrip
import StagedRollout.Proofs.Filter.Wildcard
import StagedRollout.Proofs.Scheduler.GivingUp
import StagedRollout.Request.Execute

namespace StagedRollout

/-! ## What requests register -/

/-- What is registered for a device under its id. -/
structure RegistryEntry where
  name : String
  tags : List String
  /-- The values of the attributes by their keys. -/
  attributes : String → Option String

/-- What is registered, by the ids. -/
abbrev Registry := TargetId → Option RegistryEntry

/-- What is registered behind a request.  Of attributes with the same key the last one counts. -/
def TargetRequest.revise (entries : Registry) : TargetRequest → Registry
  | .add id name tags attributes =>
    Function.update entries id
      (some ⟨name.getD id, tags, fun key => attributes.reverse.lookup key⟩)
  | .remove id => Function.update entries id none
  | .list _ => entries

/-- What is registered behind requests, the first of which found nothing registered. -/
def registered (requests : List TargetRequest) : Registry :=
  requests.foldl TargetRequest.revise fun _ => none

/-- The entry of a stored device. -/
def RegistryEntry.ofTarget (t : Target) : RegistryEntry := ⟨t.name, t.tags, t.attributes.find?⟩

/-- The devices in a store are the entries of a registry. -/
structure Registers (entries : Registry) (s : Store) : Prop where
  undamaged : Table.Undamaged s.targets
  keyed : ∀ {key t}, Table.intact? s.targets key = some t → t.id = key
  holds : ∀ id, (Table.intact? s.targets id).map .ofTarget = entries id

/-- In a map with the entries of a list a key has its last value. -/
lemma OrderedMap.find?_ofList {α : Type} (l : List (String × α)) (key : String) :
    (OrderedMap.ofList l).find? key = l.reverse.lookup key := by
  induction l using List.reverseRecOn with
  | nil => rfl
  | append_singleton l e ih =>
    have hlast : OrderedMap.ofList (l ++ [e]) = (OrderedMap.ofList l).insert e.1 e.2 :=
      List.foldl_append
    rw [hlast, OrderedMap.find?_insert, ih, List.reverse_concat, List.lookup_cons]
    by_cases hkey : key = e.1
    · rw [if_pos hkey, hkey, beq_self_eq_true]
    · rw [if_neg hkey, beq_eq_false_iff_ne.2 hkey]

namespace Registers

variable {entries : Registry} {s : Store}

lemma empty : Registers (fun _ => none) .empty where
  undamaged := by
    intro key row hrow
    cases hrow
  keyed := by
    intro key t ht
    cases ht
  holds _ := rfl

lemma put (h : Registers entries s) (t : Target) :
    Registers (Function.update entries t.id (some (.ofTarget t)))
      { s with targets := Table.put s.targets t.id t } where
  undamaged := h.undamaged.put _ _
  keyed := by
    intro key u hu
    rw [Table.intact?_put] at hu
    split_ifs at hu with hkey
    · cases hu
      exact hkey.symm
    · exact h.keyed hu
  holds id := by
    rw [Table.intact?_put, Function.update_apply]
    split_ifs
    · rfl
    · exact h.holds id

lemma erase (h : Registers entries s) (id : TargetId) :
    Registers (Function.update entries id none) { s with targets := s.targets.erase id } where
  undamaged := h.undamaged.erase _
  keyed := by
    intro key u hu
    rw [Table.intact?_erase] at hu
    split_ifs at hu
    exact h.keyed hu
  holds id' := by
    rw [Table.intact?_erase, Function.update_apply]
    split_ifs
    · rfl
    · exact h.holds id'

end Registers

/-- What holds behind an operation whether it succeeds or not. -/
lemma Operation.Under.leaves {ε α : Type} {op : Operation ε α} {P : Store → Prop} {w : World}
    (h : Operation.Under .silent op (fun _ => P) (fun _ => P) w.store) (env : Surroundings) :
    P ((ExceptT.run op).run env w).2.store := by
  have hmessages : ∀ a s, Terms.silent.meanwhile s (env.deliver a s).2 := fun _ _ => trivial
  obtain ⟨-, hend⟩ := Program.Under.run hmessages h
  revert hend
  generalize ((ExceptT.run op).run env w).1 = answer
  cases answer <;> exact id

namespace Request

variable {entries : Registry} {s : Store}

lemma putTarget_registers (h : Registers entries s) (t : Target)
    {E : RequestError → Store → Prop} :
    Operation.Under .silent (commit (Transaction.putTarget t))
      (fun _ => Registers (Function.update entries t.id (some (.ofTarget t)))) E s := by
  refine .mapError (.commit trivial nofun fun _ _ => ⟨nofun, ?_⟩)
  rintro _ _ ⟨⟩
  exact ⟨trivial, h.put t⟩

lemma deleteTarget_registers (h : Registers entries s) (id : TargetId)
    {E : RequestError → Store → Prop} :
    Operation.Under .silent (commit (Transaction.deleteTarget id))
      (fun _ => Registers (Function.update entries id none)) E s := by
  refine .mapError (.commit trivial nofun fun _ _ => ⟨nofun, ?_⟩)
  rintro _ _ ⟨⟩
  exact ⟨trivial, h.erase id⟩

/-- A request does to the store what it does to the registry, whether it succeeds or not. -/
lemma executeTarget_registers [Wildcard.Limit] (request : TargetRequest) (h : Registers entries s) :
    Operation.Under .silent (executeTarget request) (fun _ => Registers (request.revise entries))
      (fun _ => Registers (request.revise entries)) s := by
  cases request with
  | add id name tags attributes =>
    refine .bind (.mapError (.read (fun old _ => .bind ?_) fun e he => ?_))
    · -- the times of a device are no part of its entry
      have hentry : ∀ since, RegistryEntry.ofTarget ⟨id, name.getD id, .ofList attributes, tags,
          since, old.bind (·.lastPollAt)⟩ =
            ⟨name.getD id, tags, fun key => attributes.reverse.lookup key⟩ := fun since =>
        congrArg (RegistryEntry.mk _ _) (funext (OrderedMap.find?_ofList attributes))
      have hwrite : ∀ since, Operation.Under .silent
          (commit (Transaction.putTarget
            ⟨id, name.getD id, .ofList attributes, tags, since, old.bind (·.lastPollAt)⟩))
          (fun _ => Registers ((TargetRequest.add id name tags attributes).revise entries))
          (fun _ => Registers ((TargetRequest.add id name tags attributes).revise entries)) s := by
        intro since
        rw [TargetRequest.revise, ← hentry since]
        exact putTarget_registers h _
      cases old with
      | some t => exact .pure (.bind (hwrite t.registeredAt))
      | none => exact .lift fun now => Operation.Under.bind (hwrite (now / 1000))
    · rw [Table.read_of_undamaged h.undamaged] at he
      cases he
  | remove id =>
    refine .bind ((deleteTarget_registers h id).mono (fun found s' h' => ?_) fun _ _ h' => h')
    split
    · exact .pure h'
    · exact .throw h'
  | list query =>
    refine .bind (.ofExcept (fun expr _ => ?_) fun _ _ => h)
    exact .bind (.mapError (.read (fun _ _ => .pure h) fun _ _ => h))

/-- What is left behind requests on devices, each of which is carried out to its end. -/
def afterTargets [Wildcard.Limit] (env : Surroundings) (requests : List TargetRequest) : World :=
  requests.foldl (fun w request => ((ExceptT.run (executeTarget request)).run env w).2)
    (.ofStore .empty)

/-- **Behind any requests the store holds what they registered.** -/
theorem afterTargets_registers [Wildcard.Limit] (env : Surroundings)
    (requests : List TargetRequest) :
    Registers (registered requests) (afterTargets env requests).store := by
  induction requests using List.reverseRecOn with
  | nil => exact .empty
  | append_singleton requests request ih =>
    have hentries : registered (requests ++ [request]) = request.revise (registered requests) :=
      List.foldl_append
    have hworld : afterTargets env (requests ++ [request]) =
        ((ExceptT.run (executeTarget request)).run env (afterTargets env requests)).2 :=
      List.foldl_append
    rw [hentries, hworld]
    exact (executeTarget_registers request ih).leaves env

end Request

namespace TargetFilter

open Operation (Ends)
open Run (quiet)

/-! ## What a filter finds -/

/-- The texts that a device has for a field. -/
def texts (id : TargetId) (entry : RegistryEntry) : Field → List String
  | .id => [id]
  | .name => [entry.name]
  | .tag => entry.tags
  | .attribute key => (entry.attributes key).toList

/-- Behind requests a filter is resolved to exactly the registered devices with a property. -/
def Finds [Wildcard.Limit] (env : Surroundings) (requests : List TargetRequest) (filter : String)
    (p : TargetId → RegistryEntry → Prop) : Prop :=
  ∃ selected, Ends env (Resolver.ofStore filter) (Request.afterTargets env requests) selected
      (Request.afterTargets env requests) ∧
    ∀ id, id ∈ selected ↔ ∃ entry, registered requests id = some entry ∧ p id entry

lemma mem_select {e : Expr} {targets : List Target} {id : TargetId} :
    id ∈ Resolver.select e targets ↔ ∃ t ∈ targets, e.selects t = true ∧ t.id = id := by
  simp only [Resolver.select, OrderedSet.mem_ofList, List.mem_map, List.mem_filter, and_assoc]

/-- A text that stands for no saved filter is resolved as it is. -/
lemma expand_ends (env : Surroundings) (w : World) {filter : String}
    (h : ∀ id, Text.trimChars filter.toList ≠ '@' :: id) :
    Ends env (Resolver.expand filter) w filter w := by
  unfold Resolver.expand
  split
  · next id heq => exact absurd heq (h id)
  · rfl

/-- A filter whose source can be read resolves to the devices that pass. -/
lemma ofStore_ends [Wildcard.Limit] {env : Surroundings} {w : World} {filter source : String}
    {e : Expr} (hsource : Ends env (Resolver.expand filter) w source w)
    (hparse : parse source = .ok e)
    (h : Table.Undamaged w.store.targets) :
    Ends env (Resolver.ofStore filter) w (Resolver.select e (Table.rows w.store.targets)) w := by
  have hall : Store.listTargets w.store = .ok (Table.rows w.store.targets) := by
    have hlist : Store.listTargets w.store =
        .ok ((Table.rows w.store.targets).filter fun _ => true) :=
      Table.list_eq_filter h fun _ => by simp [startsWith]
    rwa [List.filter_true] at hlist
  have hexpr : (parse source).mapError (fun e => RolloutError.invalidFilter (.malformed e)) =
      .ok e := by
    rw [hparse]
    rfl
  exact .bind hsource (.bind (.ofExcept hexpr) (.bind (.mapError (.read hall) _) rfl))

/-- A filter finds what passes it. -/
lemma finds_of_parse [Wildcard.Limit] {filter : String} {e : Expr}
    {p : TargetId → RegistryEntry → Prop} (env : Surroundings) (requests : List TargetRequest)
    (hfilter : ∀ id, Text.trimChars filter.toList ≠ '@' :: id) (hparse : parse filter = .ok e)
    (hp : ∀ t, e.selects t = true ↔ p t.id (.ofTarget t)) : Finds env requests filter p := by
  have h := Request.afterTargets_registers env requests
  refine ⟨_, ofStore_ends (expand_ends env _ hfilter) hparse h.undamaged, fun id => ?_⟩
  rw [mem_select, ← h.holds id]
  simp only [Option.map_eq_some_iff]
  constructor
  · rintro ⟨t, ht, hpass, rfl⟩
    obtain ⟨key, hkey⟩ := Table.mem_rows.1 ht
    obtain rfl := h.keyed hkey
    exact ⟨_, ⟨t, hkey, rfl⟩, (hp t).1 hpass⟩
  · rintro ⟨_, ⟨t, ht, rfl⟩, hpass⟩
    obtain rfl := h.keyed ht
    exact ⟨t, Table.mem_rows.2 ⟨_, ht⟩, (hp t).2 hpass, rfl⟩

/-! ## Lone stars -/

/-- The filter that compares a field with a lone star. -/
def loneStar (field : Field) (op : Comparison) : String :=
  String.ofList (field.source ++ op.sign.toList ++ ['*'])

example : loneStar .id .equal = "id==*" := by decide

example : loneStar (.attribute "site") .different = "attribute.site!=*" := by decide

lemma parse_loneStar [Wildcard.Limit] {field : Field} (hfield : field.IsWritable)
    (op : Comparison) : parse (loneStar field op) = .ok (.compare field op "*") := by
  have hstar : (Token.word "*").IsLexeme := isLexeme_word (by decide) (by decide)
  have hspelled := Spelled.comparison hfield op hstar (.word "*") Wildcard.Limit.allows_loneStar
  have hwritten := (Spaced.evenly blank_nil _).written hspelled.lexemes hspelled.beside
  have htext : loneStar field op = String.ofList
      (([.word (String.ofList field.source), .op op, .word "*"].map Token.spelling).flatMap
        ([] ++ ·)) := by
    simp [loneStar, Token.spelling]
  rw [htext]
  exact parse_of_written hwritten (.single (.single hspelled.derived)) (.of_isChain hspelled.beside)

/-- The name of a field begins with a letter, so a lone star is no reference to a saved filter. -/
lemma trimChars_loneStar (field : Field) (op : Comparison) (id : List Char) :
    Text.trimChars (loneStar field op).toList ≠ '@' :: id := by
  obtain ⟨c, cs, hsource, hblank, hat⟩ :
      ∃ c cs, field.source = c :: cs ∧ Text.isBlank c = false ∧ c ≠ '@' := by
    cases field <;> exact ⟨_, _, rfl, by decide, by decide⟩
  rw [loneStar, String.toList_ofList, hsource, Text.trimChars_of_ends]
  · intro heq
    exact hat (List.cons.inj heq).1
  · simpa using hblank
  · intro d hd
    rw [List.getLast?_concat] at hd
    obtain rfl := Option.some.inj hd
    decide

/-- A lone star stands for every text without a line break. -/
lemma valueMatches_star (text : String) : valueMatches "*" text = true ↔ '\n' ∉ text.toList := by
  have hstar : valueMatches "*" text = Wildcard.isMatch ['*'] text.toList := rfl
  rw [hstar, Wildcard.isMatch_iff_covers, Wildcard.covers_compile_star]
  constructor
  · rintro ⟨filling, rest, htext, hfilling, hrest⟩
    rw [htext, Wildcard.covers_compile_nil.1 hrest, List.append_nil]
    exact hfilling
  · intro h
    exact ⟨text.toList, [], (List.append_nil _).symm, h, Wildcard.covers_compile_nil.2 rfl⟩

lemma hits_star (field : Field) (t : Target) :
    field.hits "*" t = true ↔ ∃ text ∈ texts t.id (.ofTarget t) field, '\n' ∉ text.toList := by
  match field with
  | .id => simp [Field.hits, texts, valueMatches_star]
  | .name => simp [Field.hits, texts, valueMatches_star, RegistryEntry.ofTarget]
  | .tag => simp [Field.hits, texts, valueMatches_star, RegistryEntry.ofTarget]
  | .attribute key =>
    cases hkey : t.attributes.find? key with
    | none => simp [Field.hits, texts, RegistryEntry.ofTarget, hkey]
    | some text => simp [Field.hits, texts, valueMatches_star, RegistryEntry.ofTarget, hkey]

variable {field : Field}

lemma finds_equal [Wildcard.Limit] (env : Surroundings) (requests : List TargetRequest)
    (hfield : field.IsWritable) :
    Finds env requests (loneStar field .equal) fun id entry =>
      ∃ text ∈ texts id entry field, '\n' ∉ text.toList :=
  finds_of_parse env requests (trimChars_loneStar field .equal) (parse_loneStar hfield .equal)
    (hits_star field)

lemma finds_different [Wildcard.Limit] (env : Surroundings) (requests : List TargetRequest)
    (hfield : field.IsWritable) :
    Finds env requests (loneStar field .different) fun id entry =>
      ∀ text ∈ texts id entry field, '\n' ∈ text.toList := by
  refine finds_of_parse env requests (trimChars_loneStar field .different)
    (parse_loneStar hfield .different) fun t => ?_
  have hnot : Expr.selects t (.compare field .different "*") = !field.hits "*" t := rfl
  rw [hnot, Bool.not_eq_true', ← Bool.not_eq_true, hits_star]
  simp only [not_exists, not_and, not_not]

lemma Finds.congr [Wildcard.Limit] {env : Surroundings} {requests : List TargetRequest}
    {filter : String} {p q : TargetId → RegistryEntry → Prop} (h : Finds env requests filter p)
    (hpq : ∀ id entry, registered requests id = some entry → (p id entry ↔ q id entry)) :
    Finds env requests filter q := by
  obtain ⟨selected, hends, hmem⟩ := h
  refine ⟨selected, hends, fun id => (hmem id).trans ?_⟩
  constructor
  · rintro ⟨entry, hentry, hp⟩
    exact ⟨entry, hentry, (hpq id entry hentry).1 hp⟩
  · rintro ⟨entry, hentry, hq⟩
    exact ⟨entry, hentry, (hpq id entry hentry).2 hq⟩

/-- A filter finds the devices with one property only. -/
lemma Finds.unique [Wildcard.Limit] {env : Surroundings} {requests : List TargetRequest}
    {filter : String} {p q : TargetId → RegistryEntry → Prop} (hp : Finds env requests filter p)
    (hq : Finds env requests filter q) {id : TargetId} {entry : RegistryEntry}
    (hentry : registered requests id = some entry) : p id entry ↔ q id entry := by
  obtain ⟨selected, hends, hmem⟩ := hp
  obtain ⟨selected', hends', hmem'⟩ := hq
  obtain rfl : selected = selected' := Except.ok.inj (congrArg Prod.fst (hends.symm.trans hends'))
  have hboth := (hmem id).symm.trans (hmem' id)
  simpa only [hentry, Option.some.injEq, exists_eq_left'] using hboth

/-- A lone star finds the devices that have a text for a field, and with `!=` the others. -/
def TestsPresence [Wildcard.Limit] (env : Surroundings) (requests : List TargetRequest)
    (field : Field) : Prop :=
  Finds env requests (loneStar field .equal) (fun id entry => texts id entry field ≠ []) ∧
    Finds env requests (loneStar field .different) fun id entry => texts id entry field = []

/-- A lone star tests presence if no device has texts with line breaks only. -/
lemma testsPresence_iff [Wildcard.Limit] (env : Surroundings) (requests : List TargetRequest)
    (hfield : field.IsWritable) :
    TestsPresence env requests field ↔
      ∀ id entry, registered requests id = some entry → texts id entry field ≠ [] →
        ∃ text ∈ texts id entry field, '\n' ∉ text.toList := by
  have hequal := finds_equal env requests hfield
  have hdifferent := finds_different env requests hfield
  constructor
  · rintro ⟨hpresent, -⟩ id entry hentry hne
    exact (hpresent.unique hequal hentry).1 hne
  · intro hlines
    have hsame : ∀ id entry, registered requests id = some entry →
        ((∃ text ∈ texts id entry field, '\n' ∉ text.toList) ↔ texts id entry field ≠ []) := by
      intro id entry hentry
      constructor
      · rintro ⟨text, htext, -⟩
        exact List.ne_nil_of_mem htext
      · exact hlines id entry hentry
    refine ⟨hequal.congr hsame, hdifferent.congr fun id entry hentry => ?_⟩
    rw [← not_iff_not, ← ne_eq, ← hsame id entry hentry]
    simp only [not_forall, exists_prop]

/-- **A lone star finds exactly the devices that have a text without a line break for a field**, and
with `!=` all others.  So it tests presence if no device has texts with line breaks only. -/
theorem resolve_loneStar [Wildcard.Limit] (env : Surroundings) (requests : List TargetRequest)
    (hfield : field.IsWritable) :
    Finds env requests (loneStar field .equal) (fun id entry =>
        ∃ text ∈ texts id entry field, '\n' ∉ text.toList) ∧
      Finds env requests (loneStar field .different) (fun id entry =>
        ∀ text ∈ texts id entry field, '\n' ∈ text.toList) ∧
      (TestsPresence env requests field ↔
        ∀ id entry, registered requests id = some entry → texts id entry field ≠ [] →
          ∃ text ∈ texts id entry field, '\n' ∉ text.toList) :=
  ⟨finds_equal env requests hfield, finds_different env requests hfield,
    testsPresence_iff env requests hfield⟩

/-- Devices with a place in one line, with one in two lines, and with none. -/
def places : List TargetRequest :=
  [.add "a" none [] [("site", "berlin")], .add "b" none [] [("site", "berlin\nhall 3")],
    .add "c" none [] [], .add "d" none [] [("site", "")], .remove "d"]

open scoped Wildcard in
theorem resolve_loneStar_site :
    (Field.attribute "site").IsWritable ∧
      (∃ selected, Ends quiet (Resolver.ofStore "attribute.site==*")
          (Request.afterTargets quiet places) selected (Request.afterTargets quiet places) ∧
        "a" ∈ selected ∧ "b" ∉ selected ∧ "c" ∉ selected ∧ "d" ∉ selected) ∧
      ∃ selected, Ends quiet (Resolver.ofStore "attribute.site!=*")
          (Request.afterTargets quiet places) selected (Request.afterTargets quiet places) ∧
        "a" ∉ selected ∧ "b" ∈ selected ∧ "c" ∈ selected ∧ "d" ∉ selected := by
  have hsite : (Field.attribute "site").IsWritable :=
    Field.isWritable_ofKey (by decide) (by decide)
  obtain ⟨⟨found, hfound, hin⟩, ⟨rest, hrest, hout⟩, -⟩ := resolve_loneStar quiet places hsite
  refine ⟨hsite, ⟨found, hfound, ?_⟩, rest, hrest, ?_⟩
  · simp [hin, places, registered, TargetRequest.revise, texts]
  · simp [hout, places, registered, TargetRequest.revise, texts]

/-- A device whose only text has a line break is missed. -/
lemma not_testsPresence_of_texts [Wildcard.Limit] (env : Surroundings)
    {requests : List TargetRequest} {id : TargetId} {entry : RegistryEntry} {text : String}
    (hfield : field.IsWritable)
    (hentry : registered requests id = some entry) (htexts : texts id entry field = [text])
    (hline : '\n' ∈ text.toList) : ¬ TestsPresence env requests field := by
  intro hpresent
  have hne : texts id entry field ≠ [] := by simp [htexts]
  obtain ⟨text', hmem, hnone⟩ :=
    (testsPresence_iff env requests hfield).1 hpresent id entry hentry hne
  rw [htexts, List.mem_singleton] at hmem
  exact hnone (hmem ▸ hline)

/-- Two devices, one of them with a line break in all of its texts. -/
def twoLines : List TargetRequest :=
  [.add "a" (some "device a") ["fleet"] [("site", "berlin")],
    .add "b\nc" (some "device\nb") ["north\nwest"] [("site", "berlin\nhall 3")]]

open scoped Wildcard in
theorem not_testsPresence :
    ¬ TestsPresence quiet twoLines .id ∧ ¬ TestsPresence quiet twoLines .name ∧
      ¬ TestsPresence quiet twoLines .tag ∧
      ¬ TestsPresence quiet twoLines (.attribute "site") := by
  have hentry : registered twoLines "b\nc" = some ⟨"device\nb", ["north\nwest"],
      fun key => [("site", "berlin\nhall 3")].lookup key⟩ := rfl
  have hsite : (Field.attribute "site").IsWritable :=
    Field.isWritable_ofKey (by decide) (by decide)
  exact ⟨not_testsPresence_of_texts quiet trivial hentry rfl (by decide),
    not_testsPresence_of_texts quiet trivial hentry rfl (by decide),
    not_testsPresence_of_texts quiet trivial hentry rfl (by decide),
    not_testsPresence_of_texts quiet hsite hentry rfl (by decide)⟩

end TargetFilter

end StagedRollout
