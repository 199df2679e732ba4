/-
# Maps in key order

A map from texts to values, kept as a list of entries in strictly ascending key order.  Keys
are ordered by code points, which is the order of their UTF-8 bytes.  The order is part of the
type, so two maps with the same contents are equal (`OrderedMap.ext_find?`), a look-up after an
insertion or a removal is one equation, and listing a map needs no sorting.
-/

namespace StagedRollout

/-- Whether `key` begins with `start`. -/
def startsWith (start key : String) : Bool := start.toList.isPrefixOf key.toList

theorem startsWith_iff {start key : String} :
    startsWith start key = true ↔ ∃ rest, key.toList = start.toList ++ rest := by
  rw [startsWith, List.isPrefixOf_iff_prefix]
  exact ⟨fun ⟨r, h⟩ => ⟨r, h.symm⟩, fun ⟨r, h⟩ => ⟨r, h.symm⟩⟩

/-- Two texts are ordered one way or the other, or they are equal. -/
theorem key_trichotomy (a b : String) : a < b ∨ a = b ∨ b < a := by
  by_cases h : a < b
  · exact .inl h
  · by_cases h' : b < a
    · exact .inr (.inr h')
    · exact .inr (.inl (String.le_antisymm (String.not_lt.1 h') (String.not_lt.1 h)))

/-- A map from texts to values, in ascending key order. -/
structure OrderedMap (α : Type) where
  /-- The entries, each key once. -/
  entries : List (String × α)
  /-- The keys ascend. -/
  ascending : entries.Pairwise fun a b => a.1 < b.1
deriving DecidableEq, Repr

namespace OrderedMap

variable {α : Type}

/-- The map without entries. -/
def empty : OrderedMap α := ⟨[], .nil⟩

instance : Inhabited (OrderedMap α) := ⟨empty⟩

/-- The value of the first entry with a key. -/
def lookup (key : String) : List (String × α) → Option α
  | [] => none
  | (k, v) :: rest => if k = key then some v else lookup key rest

/-- The value that a key has, if any. -/
def find? (m : OrderedMap α) (key : String) : Option α := lookup key m.entries

/-- Puts an entry in its place, over one with the same key. -/
def insertEntry (key : String) (value : α) : List (String × α) → List (String × α)
  | [] => [(key, value)]
  | (k, v) :: rest =>
    if key < k then (key, value) :: (k, v) :: rest
    else if k = key then (key, value) :: rest
    else (k, v) :: insertEntry key value rest

theorem mem_insertEntry {key : String} {value : α} {e : String × α} {l : List (String × α)}
    (h : e ∈ insertEntry key value l) : e = (key, value) ∨ e ∈ l := by
  induction l with
  | nil => simpa [insertEntry] using h
  | cons head rest ih =>
    obtain ⟨k, v⟩ := head
    simp only [insertEntry] at h
    split at h
    · simpa using h
    · split at h
      · rcases List.mem_cons.1 h with h | h
        · exact .inl h
        · exact .inr (List.mem_cons_of_mem _ h)
      · rcases List.mem_cons.1 h with h | h
        · exact .inr (by simp [h])
        · exact (ih h).imp id (List.mem_cons_of_mem _)

theorem ascending_insertEntry (key : String) (value : α) {l : List (String × α)}
    (h : l.Pairwise fun a b => a.1 < b.1) :
    (insertEntry key value l).Pairwise fun a b => a.1 < b.1 := by
  induction l with
  | nil => simp [insertEntry]
  | cons head rest ih =>
    obtain ⟨k, v⟩ := head
    have hrest := List.pairwise_cons.1 h
    simp only [insertEntry]
    split
    · rename_i hk
      refine List.pairwise_cons.2 ⟨fun e he => ?_, h⟩
      rcases List.mem_cons.1 he with he | he
      · simpa [he] using hk
      · exact String.lt_trans hk (hrest.1 e he)
    · split
      · rename_i hk
        subst hk
        exact List.pairwise_cons.2 ⟨hrest.1, hrest.2⟩
      · rename_i hlt hne
        refine List.pairwise_cons.2 ⟨fun e he => ?_, ih hrest.2⟩
        rcases mem_insertEntry he with he | he
        · rcases key_trichotomy key k with h' | h' | h'
          · exact absurd h' hlt
          · exact absurd h'.symm hne
          · simpa [he] using h'
        · exact hrest.1 e he

/-- The map with a value for a key, whatever it held for that key before. -/
def insert (m : OrderedMap α) (key : String) (value : α) : OrderedMap α :=
  ⟨insertEntry key value m.entries, ascending_insertEntry key value m.ascending⟩

/-- The map without a key. -/
def erase (m : OrderedMap α) (key : String) : OrderedMap α :=
  ⟨m.entries.filter fun e => e.1 != key, m.ascending.filter _⟩

/-- The map with the entries of a list, where a later entry replaces an earlier one. -/
def ofList (l : List (String × α)) : OrderedMap α :=
  l.foldl (fun m e => m.insert e.1 e.2) empty

/-- The keys, ascending. -/
def keys (m : OrderedMap α) : List String := m.entries.map (·.1)

/-- The values in key order. -/
def values (m : OrderedMap α) : List α := m.entries.map (·.2)

/-- The entries whose keys begin with `start`: the first run of such keys among those that are
not below `start`. -/
def scan (m : OrderedMap α) (start : String) : List (String × α) :=
  (m.entries.dropWhile fun e => decide (e.1 < start)).takeWhile fun e => startsWith start e.1

/-! ## Look-ups -/

@[simp] theorem find?_empty (key : String) : (empty : OrderedMap α).find? key = none := rfl

theorem lookup_insertEntry (key k : String) (value : α) (l : List (String × α)) :
    lookup k (insertEntry key value l) = if k = key then some value else lookup k l := by
  induction l with
  | nil =>
    by_cases h : k = key
    · simp [insertEntry, lookup, h]
    · simp [insertEntry, lookup, h, Ne.symm h]
  | cons head rest ih =>
    obtain ⟨k', v'⟩ := head
    simp only [insertEntry]
    split
    · by_cases h : k = key
      · simp [lookup, h]
      · simp [lookup, h, Ne.symm h]
    · split
      · rename_i hk
        subst hk
        by_cases h : k = k'
        · simp [lookup, h]
        · simp [lookup, h, Ne.symm h]
      · rename_i hne
        by_cases h : k' = k
        · have : k ≠ key := fun e => hne (h.trans e)
          simp [lookup, h, this]
        · simp [lookup, h, ih]

@[simp] theorem find?_insert (m : OrderedMap α) (key k : String) (value : α) :
    (m.insert key value).find? k = if k = key then some value else m.find? k :=
  lookup_insertEntry key k value m.entries

theorem lookup_filter_ne (key k : String) (l : List (String × α)) :
    lookup k (l.filter fun e => e.1 != key) = if k = key then none else lookup k l := by
  induction l with
  | nil => simp [lookup]
  | cons head rest ih =>
    obtain ⟨k', v'⟩ := head
    by_cases hk : k' = key
    · simp only [List.filter, hk, bne_self_eq_false, ih, lookup]
      by_cases h : k = key
      · simp [h]
      · simp [h, Ne.symm h]
    · have hb : (k' != key) = true := by simp [hk]
      simp only [List.filter, hb, lookup, ih]
      by_cases h : k' = k
      · have : k ≠ key := fun e => hk (h.trans e)
        simp [h, this]
      · simp [h]

@[simp] theorem find?_erase (m : OrderedMap α) (key k : String) :
    (m.erase key).find? k = if k = key then none else m.find? k :=
  lookup_filter_ne key k m.entries

theorem lookup_eq_some_of_mem {k : String} {v : α} {l : List (String × α)}
    (ha : l.Pairwise fun a b => a.1 < b.1) (h : (k, v) ∈ l) : lookup k l = some v := by
  induction l with
  | nil => simp at h
  | cons head rest ih =>
    obtain ⟨k', v'⟩ := head
    have hrest := List.pairwise_cons.1 ha
    rcases List.mem_cons.1 h with h | h
    · simp only [Prod.mk.injEq] at h
      simp [lookup, h.1, h.2]
    · have hlt := hrest.1 _ h
      have hne : k' ≠ k := fun e => String.lt_irrefl k (by simp only [e] at hlt; exact hlt)
      simp [lookup, hne, ih hrest.2 h]

theorem mem_of_lookup_eq_some {k : String} {v : α} {l : List (String × α)}
    (h : lookup k l = some v) : (k, v) ∈ l := by
  induction l with
  | nil => simp [lookup] at h
  | cons head rest ih =>
    obtain ⟨k', v'⟩ := head
    by_cases hk : k' = k
    · simp only [lookup, hk, if_true, Option.some.injEq] at h
      simp [hk, h]
    · simp only [lookup, hk, if_false] at h
      exact List.mem_cons_of_mem _ (ih h)

/-- The entries of a map are its look-ups. -/
theorem mem_entries_iff (m : OrderedMap α) {k : String} {v : α} :
    (k, v) ∈ m.entries ↔ m.find? k = some v :=
  ⟨lookup_eq_some_of_mem m.ascending, mem_of_lookup_eq_some⟩

/-- Ascending lists with the same elements are equal. -/
theorem eq_of_mem_iff {l₁ l₂ : List (String × α)}
    (h₁ : l₁.Pairwise fun a b => a.1 < b.1) (h₂ : l₂.Pairwise fun a b => a.1 < b.1)
    (h : ∀ e, e ∈ l₁ ↔ e ∈ l₂) : l₁ = l₂ := by
  induction l₁ generalizing l₂ with
  | nil =>
    cases l₂ with
    | nil => rfl
    | cons e r => exact absurd ((h e).2 (by simp)) (by simp)
  | cons a r₁ ih =>
    cases l₂ with
    | nil => exact absurd ((h a).1 (by simp)) (by simp)
    | cons b r₂ =>
      have p₁ := List.pairwise_cons.1 h₁
      have p₂ := List.pairwise_cons.1 h₂
      have hab : a = b := by
        rcases List.mem_cons.1 ((h a).1 (by simp)) with e | ha
        · exact e
        · rcases List.mem_cons.1 ((h b).2 (by simp)) with e | hb
          · exact e.symm
          · exact absurd (p₂.1 a ha) (String.lt_asymm (p₁.1 b hb))
      subst hab
      congr 1
      refine ih p₁.2 p₂.2 fun e => ?_
      constructor
      · intro he
        rcases List.mem_cons.1 ((h e).1 (List.mem_cons_of_mem _ he)) with e' | h'
        · subst e'
          exact absurd (p₁.1 e he) (String.lt_irrefl _)
        · exact h'
      · intro he
        rcases List.mem_cons.1 ((h e).2 (List.mem_cons_of_mem _ he)) with e' | h'
        · subst e'
          exact absurd (p₂.1 e he) (String.lt_irrefl _)
        · exact h'

/-- Maps that agree on every look-up are equal. -/
theorem ext_find? {m₁ m₂ : OrderedMap α} (h : ∀ k, m₁.find? k = m₂.find? k) : m₁ = m₂ := by
  have he : m₁.entries = m₂.entries :=
    eq_of_mem_iff m₁.ascending m₂.ascending fun ⟨k, v⟩ => by
      rw [mem_entries_iff, mem_entries_iff, h k]
  cases m₁
  cases m₂
  simpa using he

end OrderedMap

end StagedRollout
