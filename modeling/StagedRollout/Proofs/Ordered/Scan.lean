/-
# What a scan finds

Texts that begin alike stand next to each other in key order.  A scan, which starts at the first
key that is not below a text and ends at the first key that does not begin with it, therefore
finds every key that begins with the text (`OrderedMap.scan_eq_filter`).
-/
import Mathlib
import StagedRollout.Ordered.Map

namespace StagedRollout

/-! ## Texts that begin alike -/

/-- A text that begins with another one is not below it. -/
lemma not_lt_of_startsWith {start key : String} (h : startsWith start key = true) :
    ¬ key < start := by
  obtain ⟨rest, hrest⟩ := startsWith_iff.1 h
  rw [String.lt_iff, hrest, List.not_lt]
  exact List.le_append_left

/-- Between a text and one that begins with it, every text begins with it. -/
lemma isPrefix_of_between {start mid last : List Char} (hlow : ¬ mid < start)
    (hhigh : mid < last) (h : start <+: last) : start <+: mid := by
  induction start generalizing mid last with
  | nil => exact List.nil_prefix
  | cons c start ih =>
    obtain ⟨rest, rfl⟩ := h
    cases mid with
    | nil => exact absurd hlow (by simp)
    | cons d mid =>
      rw [List.cons_append, List.cons_lt_cons_iff] at hhigh
      -- a smaller first character would put the middle text below, a greater one behind
      have hdc : d = c := by
        rcases hhigh with hdc | ⟨hdc, -⟩
        · exact absurd (List.cons_lt_cons_iff.2 (.inl hdc)) hlow
        · exact hdc
      subst hdc
      have hmid : mid < start ++ rest := by
        rcases hhigh with hdd | ⟨-, hmid⟩
        · exact absurd hdd (Char.lt_irrefl d)
        · exact hmid
      have hstart : ¬ mid < start := fun hlt => hlow (List.cons_lt_cons_iff.2 (.inr ⟨rfl, hlt⟩))
      obtain ⟨tail, rfl⟩ := ih hstart hmid (List.prefix_append start rest)
      exact ⟨tail, rfl⟩

/-- Keys that begin with a text are neighbours. -/
lemma startsWith_of_between {start mid last : String} (hlow : ¬ mid < start) (hhigh : mid < last)
    (h : startsWith start last = true) : startsWith start mid = true := by
  rw [startsWith, List.isPrefixOf_iff_prefix] at h ⊢
  exact isPrefix_of_between hlow hhigh h

namespace OrderedMap

variable {α : Type}

/-- A property that no element has behind one that lacks it holds of a first run of elements. -/
lemma takeWhile_eq_filter {p : α → Bool} {l : List α}
    (h : l.Pairwise fun a b => p b = true → p a = true) : l.takeWhile p = l.filter p := by
  induction l with
  | nil => rfl
  | cons a l ih =>
    have htail := List.pairwise_cons.1 h
    by_cases ha : p a = true
    · rw [List.takeWhile_cons_of_pos ha, List.filter_cons_of_pos ha, ih htail.2]
    · rw [List.takeWhile_cons_of_neg ha, List.filter_cons_of_neg ha, eq_comm,
        List.filter_eq_nil_iff]
      exact fun b hb hpb => ha (htail.1 b hb hpb)

lemma scan_entries {l : List (String × α)} (ha : l.Pairwise fun a b => a.1 < b.1)
    (start : String) :
    ((l.dropWhile fun e => decide (e.1 < start)).takeWhile fun e => startsWith start e.1) =
      l.filter fun e => startsWith start e.1 := by
  induction l with
  | nil => rfl
  | cons e l ih =>
    have htail := List.pairwise_cons.1 ha
    by_cases he : e.1 < start
    · have hns : ¬ startsWith start e.1 = true := fun hs => not_lt_of_startsWith hs he
      rw [List.dropWhile_cons_of_pos (by simpa using he), ih htail.2, List.filter_cons,
        if_neg hns]
    · rw [List.dropWhile_cons_of_neg (by simpa using he)]
      -- from here on no key is below the text
      refine takeWhile_eq_filter (ha.imp_of_mem fun {a b} hmem _ hab hb => ?_)
      refine startsWith_of_between (fun hlt => ?_) hab hb
      rcases List.mem_cons.1 hmem with rfl | hmem
      · exact he hlt
      · exact he (String.lt_trans (htail.1 a hmem) hlt)

/-- A scan finds exactly the entries whose keys begin with a text, in key order. -/
theorem scan_eq_filter (m : OrderedMap α) (start : String) :
    m.scan start = m.entries.filter fun e => startsWith start e.1 :=
  scan_entries m.ascending start

end OrderedMap

end StagedRollout
