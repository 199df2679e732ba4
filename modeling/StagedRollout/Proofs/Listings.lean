/-
# Listings

Rows that belong to a rollout or to a group are found by the start of their keys.  A listing by
prefix holds exactly the rows whose keys begin with a text, in the order of their bytes, whatever
is stored (`Table.scansPrefix`).  Behind every run this is what it is meant to be: names have no
colon and all group ids end in four digits, so keys that begin with a rollout's name or a group's
id and a colon belong to that rollout or that group, whatever the devices are called
(`Run.listings_exact`).
-/
import StagedRollout.Proofs.Invariants
import StagedRollout.Proofs.Ordered.Bytes

namespace StagedRollout

namespace Table

variable {α : Type}

/-! ## Tables and bytes -/

/-- Rows can be the rows of a table exactly if the bytes of their keys ascend. -/
lemma ascending_iff_exists {rows : List (String × Row α)} :
    (rows.Pairwise fun a b => utf8 a.1 < utf8 b.1) ↔ ∃ t : Table α, t.entries = rows := by
  constructor
  · intro h
    exact ⟨⟨rows, h.imp lt_iff_utf8.2⟩, rfl⟩
  · rintro ⟨t, rfl⟩
    exact t.ascending.imp lt_iff_utf8.1

lemma decode_eq_mapM (rows : List (String × Row α)) :
    decode rows = rows.mapM fun e => e.2.value := by
  induction rows with
  | nil => rfl
  | cons e rows ih =>
    obtain ⟨key, row⟩ := e
    rw [List.mapM_cons, decode, ih]
    cases row with
    | damaged reason => rfl
    | intact a => cases rows.mapM fun e => e.2.value <;> rfl

/-- What a listing by prefix makes of a table. -/
structure ScansPrefix (t : Table α) (start : String) : Prop where
  /-- A scan finds the rows whose keys begin with the prefix, all of them and in their order. -/
  found : t.scan start = t.entries.filter fun e => (utf8 start).isPrefixOf (utf8 e.1)
  /-- A listing decodes what is found, and fails with the first row that is damaged. -/
  listed : list t start = (t.scan start).mapM fun e => e.2.value

lemma scansPrefix (t : Table α) (start : String) : ScansPrefix t start where
  found := by
    rw [OrderedMap.scan_eq_filter]
    refine List.filter_congr fun e _ => ?_
    rw [Bool.eq_iff_iff, startsWith_iff_utf8, List.isPrefixOf_iff_prefix]
  listed := decode_eq_mapM _

/-! ## What belongs together -/

/-- A listing holds the values of a table that belong to something, these only, each once and in
some order. -/
def ListsJust (t : Table α) (listing : Except StoreError (List α)) (before : α → α → Prop)
    (belongs : α → Prop) : Prop :=
  ∃ values, listing = .ok values ∧ values.Pairwise before ∧
    ∀ a, a ∈ values ↔ (∃ key, read t key = .ok (some a)) ∧ belongs a

/-- Where rows stand under their own ids, a value is stored if it is found under its id. -/
lemma exists_read_iff {t : Table α} {id : α → String}
    (hid : ∀ {key a}, intact? t key = some a → id a = key) {a : α} :
    (∃ key, read t key = .ok (some a)) ↔ intact? t (id a) = some a := by
  constructor
  · rintro ⟨key, hread⟩
    have hkey := read_eq_some_iff.1 hread
    exact hid hkey ▸ hkey
  · intro h
    exact ⟨id a, read_eq_some_iff.2 h⟩

end Table

namespace Store

/-- What is listed for a rollout and for its groups is what belongs to them. -/
structure ListsOwn (s : Store) (id : RolloutId) : Prop where
  groups : Table.ListsJust s.groups (s.listGroups id) (fun a b => a.index < b.index)
    fun g => g.rolloutId = id
  actions : Table.ListsJust s.actions (s.listActions id) (fun a b => utf8 a.id < utf8 b.id)
    fun a => a.rolloutId = id
  groupActions : ∀ key g, Table.read s.groups key = .ok (some g) → g.rolloutId = id →
    Table.ListsJust s.actions (s.listActions g.id) (fun a b => utf8 a.id < utf8 b.id)
      fun a => a.groupId = g.id

lemma Keyed.listsOwn {s : Store} (h : Keyed s) {id : RolloutId}
    (hname : NewRollout.isName id = true) : ListsOwn s id where
  groups := by
    refine ⟨_, h.listGroups_of_isName hname, h.groupsOf_index_lt id, fun g => ?_⟩
    rw [h.mem_groupsOf, Table.exists_read_iff fun hg => (h.group_key hg).1, group?]
  actions := by
    refine ⟨_, h.listActions_of_isName hname,
      (h.rolloutActionsOf_ascending id).imp lt_iff_utf8.1, fun a => ?_⟩
    rw [h.mem_rolloutActionsOf, Table.exists_read_iff fun ha => (h.action_key ha).1, action?]
  groupActions := by
    intro key g hread _
    have hg : s.group? key = some g := Table.read_eq_some_iff.1 hread
    obtain ⟨rfl, -⟩ := h.group_key hg
    refine ⟨_, h.listActions_group_eq (h.isGroupId hg),
      (h.actionsOf_ascending g.id).imp lt_iff_utf8.1, fun a => ?_⟩
    rw [h.mem_actionsOf, Table.exists_read_iff fun ha => (h.action_key ha).1, action?]

end Store

namespace Run

/-- **Listings by prefix are exact and in order.**  Tables are the lists of rows whose keys ascend
byte by byte, and a scan finds the rows whose keys begin with a prefix.  Behind every run the groups
and the actions that are listed for a rollout, and the actions that are listed for one of its
groups, are those that belong to it. -/
theorem listings_exact (α : Type) (run : Run) {id : RolloutId}
    (hname : NewRollout.isName id = true) :
    (∀ rows : List (String × Row α),
      (rows.Pairwise fun a b => utf8 a.1 < utf8 b.1) ↔ ∃ t : Table α, t.entries = rows) ∧
    (∀ (t : Table α) (start : String), t.ScansPrefix start) ∧
    run.store.ListsOwn id :=
  ⟨fun _ => Table.ascending_iff_exists, Table.scansPrefix, run.sound.toKeyed.listsOwn hname⟩

/-- A rollout for two devices whose ids look like the ends of other ids. -/
def confusing (name : String) : Happening :=
  undisturbed (.create ⟨none, .standard, false, 30000, "operator"⟩ .ofStore
    { plan with name := name, groups := .explicit [[":"], ["0000:r"]] }) Resolver.ofStore_calm

/-- Two rollouts, the name of one of which begins with the name of the other one, get to work. -/
def lookalikes : Run :=
  [registration ":", registration "0000:r", confusing "r", confusing "r-0", cycle 5,
    undisturbed (.report none ⟨"r:0000::", .finishedSuccess, 6⟩) trivial, cycle 7]

theorem listings_exact_lookalikes :
    NewRollout.isName "r" = true ∧ lookalikes.store.ListsOwn "r" := by
  have hname : NewRollout.isName "r" = true := by decide +kernel
  exact ⟨hname, (listings_exact Action lookalikes hname).2.2⟩

example : (lookalikes.store.listActions "r").toOption.map (·.map (·.id)) =
    some ["r:0000::", "r:0001:0000:r"] := by cbv

end Run

end StagedRollout
