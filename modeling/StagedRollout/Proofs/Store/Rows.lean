/-
# The rows of a table

A table seen as the list of the values that it holds.  Writing a row replaces what stood under
its key and leaves the rest alone, so a count of rows changes by what the old and the new row
contribute (`Table.count_put`, `Table.count_erase`).  In a table without damaged rows a listing
holds exactly the values whose keys begin with the text that was asked for (`Table.list_eq`).
-/
import StagedRollout.Proofs.Ordered.Scan
import StagedRollout.Store.Table

namespace StagedRollout

variable {α : Type}

/-- The value of a row, if it can be decoded. -/
def Row.intact? : Row α → Option α
  | .intact a => some a
  | .damaged _ => none

/-- Where all keys are different, nothing behind the first value has its key. -/
lemma nodup_keys_cons {β : Type} {key : α → β} {a : α} {l : List α}
    (h : ((a :: l).map key).Nodup) : (∀ x ∈ l, key x ≠ key a) ∧ (l.map key).Nodup := by
  rw [List.map_cons, List.nodup_cons] at h
  exact ⟨fun x hx heq => h.1 (heq ▸ List.mem_map_of_mem hx), h.2⟩

namespace OrderedMap

/-! ## Counting entries -/

lemma lookup_eq_none_of_lt {key : String} {l : List (String × α)}
    (h : ∀ e ∈ l, key < e.1) : lookup key l = none := by
  rcases hl : lookup key l with _ | v
  · rfl
  · exact absurd (h _ (mem_of_lookup_eq_some hl)) (String.lt_irrefl key)

/-- Putting an entry in its place counts it instead of the one that had its key. -/
lemma countP_insertEntry (p : α → Bool) (key : String) (value : α) {l : List (String × α)}
    (ha : l.Pairwise fun a b => a.1 < b.1) :
    ((insertEntry key value l).countP fun e => p e.2) + (lookup key l).toList.countP p =
      (l.countP fun e => p e.2) + [value].countP p := by
  induction l with
  | nil => simp [insertEntry, lookup, List.countP_cons]
  | cons e l ih =>
    obtain ⟨k, v⟩ := e
    have htail := List.pairwise_cons.1 ha
    simp only [insertEntry]
    split
    · rename_i hlt
      -- in front of all entries, none of which has the key
      have hnone : lookup key ((k, v) :: l) = none := by
        refine lookup_eq_none_of_lt fun e he => ?_
        rcases List.mem_cons.1 he with rfl | he
        · exact hlt
        · exact String.lt_trans hlt (htail.1 e he)
      rw [hnone]
      simp only [List.countP_cons, Option.toList_none, List.countP_nil]
      omega
    · split
      · rename_i heq
        subst heq
        simp only [lookup, if_true, List.countP_cons, Option.toList_some, List.countP_nil]
        omega
      · rename_i hne
        have hih := ih htail.2
        simp only [lookup, hne, if_false, List.countP_cons, List.countP_nil] at hih ⊢
        omega

/-- Removing a key drops the entry that it had from a count. -/
lemma countP_filter_ne (p : α → Bool) (key : String) {l : List (String × α)}
    (ha : l.Pairwise fun a b => a.1 < b.1) :
    ((l.filter fun e => e.1 != key).countP fun e => p e.2) + (lookup key l).toList.countP p =
      l.countP fun e => p e.2 := by
  induction l with
  | nil => simp [lookup]
  | cons e l ih =>
    obtain ⟨k, v⟩ := e
    have htail := List.pairwise_cons.1 ha
    by_cases hk : k = key
    · subst hk
      have hsame : (l.filter fun e => e.1 != k) = l := by
        refine List.filter_eq_self.2 fun e he => ?_
        exact bne_iff_ne.2 fun heq => String.lt_irrefl k (heq ▸ htail.1 e he)
      simp only [List.filter_cons, bne_self_eq_false, Bool.false_eq_true, if_false, hsame, lookup,
        if_true, Option.toList_some, List.countP_cons, List.countP_nil]
      omega
    · have hih := ih htail.2
      have hb : (k != key) = true := bne_iff_ne.2 hk
      simp only [List.filter_cons, hb, if_true, lookup, hk, if_false, List.countP_cons] at hih ⊢
      omega

end OrderedMap

namespace Table

/-! ## Values -/

/-- The values that can be decoded, in key order. -/
def rows (t : Table α) : List α := t.entries.filterMap fun e => e.2.intact?

/-- No row of the table is damaged. -/
def Undamaged (t : Table α) : Prop := ∀ key row, t.find? key = some row → ∃ a, row = .intact a

lemma intact?_eq_bind (t : Table α) (key : String) :
    intact? t key = (t.find? key).bind Row.intact? := by
  unfold intact?
  rcases t.find? key with _ | _ | _ <;> rfl

lemma intact?_eq_some_iff {t : Table α} {key : String} {a : α} :
    intact? t key = some a ↔ t.find? key = some (.intact a) := by
  unfold intact?
  rcases t.find? key with _ | _ | _ <;> simp

lemma mem_rows {t : Table α} {a : α} : a ∈ rows t ↔ ∃ key, intact? t key = some a := by
  simp only [rows, List.mem_filterMap, intact?_eq_some_iff, ← OrderedMap.mem_entries_iff]
  constructor
  · rintro ⟨⟨key, row⟩, hmem, hrow⟩
    cases row with
    | intact b =>
      obtain rfl : b = a := by simpa [Row.intact?] using hrow
      exact ⟨key, hmem⟩
    | damaged reason => simp [Row.intact?] at hrow
  · rintro ⟨key, hmem⟩
    exact ⟨(key, .intact a), hmem, rfl⟩

/-- In a table whose rows stand under their own ids, a value is found under its id. -/
lemma mem_filter_rows {t : Table α} {id : α → String}
    (hid : ∀ {key a}, intact? t key = some a → id a = key) {p : α → Bool} {a : α} :
    a ∈ (rows t).filter p ↔ intact? t (id a) = some a ∧ p a = true := by
  rw [List.mem_filter, mem_rows]
  constructor
  · rintro ⟨⟨key, hkey⟩, hp⟩
    exact ⟨hid hkey ▸ hkey, hp⟩
  · rintro ⟨ha, hp⟩
    exact ⟨⟨id a, ha⟩, hp⟩

@[simp] lemma intact?_erase (t : Table α) (key k : String) :
    intact? (t.erase key) k = if k = key then none else intact? t k := by
  unfold intact?
  rw [OrderedMap.find?_erase]
  by_cases h : k = key <;> simp [h]

lemma read_eq_some_iff {t : Table α} {key : String} {a : α} :
    read t key = .ok (some a) ↔ intact? t key = some a := by
  unfold read intact?
  rcases t.find? key with _ | _ | _ <;> simp [Row.value, Except.map]

lemma intact?_of_read {t : Table α} {key : String} {found : Option α}
    (h : read t key = .ok found) : intact? t key = found := by
  unfold read at h
  unfold intact?
  rcases hrow : OrderedMap.find? t key with _ | _ | _ <;>
    simp_all [Row.value, Except.map]

lemma read_of_undamaged {t : Table α} (h : Undamaged t) (key : String) :
    read t key = .ok (intact? t key) := by
  unfold read intact?
  rcases hf : t.find? key with _ | row
  · rfl
  · obtain ⟨a, rfl⟩ := h _ _ hf
    rfl

lemma has_eq_isSome {t : Table α} (h : Undamaged t) (key : String) :
    has t key = (intact? t key).isSome := by
  unfold has intact?
  rcases hf : t.find? key with _ | row
  · rfl
  · obtain ⟨a, rfl⟩ := h _ _ hf
    rfl

/-- Writing the value that a key has already changes nothing. -/
lemma put_eq_self {t : Table α} {key : String} {a : α} (h : intact? t key = some a) :
    put t key a = t := by
  refine OrderedMap.ext_find? fun k => ?_
  rw [put, OrderedMap.find?_insert]
  split
  · rename_i hk
    rw [hk, intact?_eq_some_iff.1 h]
  · rfl

/-! ## Listings -/

lemma decode_eq_ok {l : List (String × Row α)} (h : ∀ e ∈ l, ∃ a, e.2 = .intact a) :
    decode l = .ok (l.filterMap fun e => e.2.intact?) := by
  induction l with
  | nil => rfl
  | cons e l ih =>
    obtain ⟨key, row⟩ := e
    obtain ⟨a, ha⟩ := h (key, row) List.mem_cons_self
    simp only at ha
    subst ha
    rw [decode, ih fun e he => h e (List.mem_cons_of_mem _ he)]
    rfl

/-- A listing of a table without damage holds the values whose keys begin with a text. -/
theorem list_eq {t : Table α} (h : Undamaged t) (start : String) :
    list t start = .ok
      ((t.entries.filter fun e => startsWith start e.1).filterMap fun e => e.2.intact?) := by
  rw [list, OrderedMap.scan_eq_filter]
  refine decode_eq_ok fun e he => ?_
  exact h _ _ ((OrderedMap.mem_entries_iff t).1 (List.mem_of_mem_filter he))

/-- A listing is the values with a property, where a key begins with the text exactly if its value
has the property. -/
lemma list_eq_filter {t : Table α} (h : Undamaged t) {start : String} {p : α → Bool}
    (hp : ∀ {key a}, intact? t key = some a → startsWith start key = p a) :
    list t start = .ok ((rows t).filter p) := by
  rw [list_eq h, rows, List.filter_filterMap, List.filterMap_filter]
  congr 1
  refine List.filterMap_congr fun e he => ?_
  obtain ⟨a, ha⟩ := h _ _ ((OrderedMap.mem_entries_iff t).1 he)
  have hkey : intact? t e.1 = some a :=
    intact?_eq_some_iff.2 (ha ▸ (OrderedMap.mem_entries_iff t).1 he)
  rw [hp hkey, ha, Row.intact?, Option.filter_some]

/-- What could be decoded is all that there was. -/
lemma eq_of_decode {entries : List (String × Row α)} {l : List α} (h : decode entries = .ok l) :
    l = entries.filterMap fun e => e.2.intact? := by
  induction entries generalizing l with
  | nil => exact (Except.ok.inj h).symm
  | cons e entries ih =>
    obtain ⟨key, row⟩ := e
    cases row with
    | damaged reason => cases h
    | intact a =>
      rw [decode] at h
      cases hrest : decode entries with
      | error e => simp [Row.value, hrest] at h
      | ok rest =>
        simp only [Row.value, hrest, Except.ok.injEq] at h
        rw [← h, ih hrest]
        rfl

/-- The values of a listing are values of rows. -/
lemma sublist_of_list {t : Table α} {start : String} {l : List α} (h : list t start = .ok l) :
    l.Sublist (rows t) := by
  rw [list, OrderedMap.scan_eq_filter] at h
  rw [eq_of_decode h]
  exact List.filter_sublist.filterMap _

/-- The values of a table are in the order of a text that each of them has as its key. -/
lemma rows_ascending {t : Table α} {f : α → String}
    (hf : ∀ {key a}, intact? t key = some a → f a = key) :
    (rows t).Pairwise fun a b => f a < f b := by
  have hvalue : ∀ {e : String × Row α} {a}, e ∈ t.entries → e.2.intact? = some a → f a = e.1 := by
    intro e a he ha
    rcases hrow : e.2 with b | reason
    · obtain rfl : b = a := by simpa [hrow, Row.intact?] using ha
      exact hf (intact?_eq_some_iff.2 (hrow ▸ (OrderedMap.mem_entries_iff t).1 he))
    · simp [hrow, Row.intact?] at ha
  rw [rows, List.pairwise_filterMap]
  refine t.ascending.imp_of_mem fun hx hy hlt a ha b hb => ?_
  rw [hvalue hx ha, hvalue hy hb]
  exact hlt

/-! ### Undamaged tables -/

lemma Undamaged.put {t : Table α} (h : Undamaged t) (key : String) (a : α) :
    Undamaged (put t key a) := by
  intro k row hrow
  rw [Table.put, OrderedMap.find?_insert] at hrow
  split at hrow
  · exact ⟨a, (Option.some.inj hrow).symm⟩
  · exact h _ _ hrow

lemma Undamaged.erase {t : Table α} (h : Undamaged t) (key : String) :
    Undamaged (OrderedMap.erase t key) := by
  intro k row hrow
  rw [OrderedMap.find?_erase] at hrow
  split at hrow
  · exact absurd hrow (by simp)
  · exact h _ _ hrow

lemma erase_eq_self {t : Table α} {key : String} (h : Undamaged t) (hnone : intact? t key = none) :
    OrderedMap.erase t key = t := by
  refine OrderedMap.ext_find? fun k => ?_
  rw [OrderedMap.find?_erase]
  split
  · rename_i hk
    subst hk
    cases hrow : t.find? k with
    | none => rfl
    | some row =>
      obtain ⟨a, rfl⟩ := h k row hrow
      rw [intact?_eq_some_iff.2 hrow] at hnone
      exact absurd hnone (by simp)
  · rfl

/-! ## Counting rows -/

/-- The number of values with a property. -/
def count (p : α → Bool) (t : Table α) : Nat := (rows t).countP p

lemma count_eq_countP (p : α → Bool) (t : Table α) :
    count p t = t.entries.countP fun e => e.2.intact?.any p := by
  rw [count, rows, List.countP_filterMap]
  congr 1
  funext e
  cases e.2.intact? <;> rfl

lemma countP_intact? (p : α → Bool) (t : Table α) (key : String) :
    (intact? t key).toList.countP p = (t.find? key).toList.countP fun row => row.intact?.any p := by
  rw [intact?_eq_bind]
  rcases t.find? key with _ | _ | _ <;> simp [Row.intact?, List.countP_cons]

/-- A written row counts instead of the one that had its key. -/
theorem count_put (p : α → Bool) (t : Table α) (key : String) (a : α) :
    count p (put t key a) + (intact? t key).toList.countP p = count p t + [a].countP p := by
  have h := OrderedMap.countP_insertEntry (fun row : Row α => row.intact?.any p) key (.intact a)
    t.ascending
  rw [count_eq_countP, count_eq_countP, countP_intact?]
  simpa [put, OrderedMap.insert, OrderedMap.find?, Row.intact?, List.countP_cons] using h

/-- A removed row is not counted any more. -/
theorem count_erase (p : α → Bool) (t : Table α) (key : String) :
    count p (t.erase key) + (intact? t key).toList.countP p = count p t := by
  have h := OrderedMap.countP_filter_ne (fun row : Row α => row.intact?.any p) key t.ascending
  rw [count_eq_countP, count_eq_countP, countP_intact?]
  exact h

end Table

end StagedRollout
