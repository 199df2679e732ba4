/-
# Sets of identifiers in order

A set of texts, kept as a strictly ascending list.  Target sets are partitioned in this order,
so what a partition does depends on the set alone.
-/
import StagedRollout.Ordered.Map

namespace StagedRollout

/-- A set of texts in ascending order. -/
structure OrderedSet where
  /-- The members, each once. -/
  members : List String
  /-- The members ascend. -/
  ascending : members.Pairwise (· < ·)
deriving DecidableEq, Repr

namespace OrderedSet

/-- Drops neighbours that are equal. -/
def distinct : List String → List String
  | [] => []
  | a :: rest =>
    match distinct rest with
    | [] => [a]
    | b :: more => if a = b then b :: more else a :: b :: more

theorem mem_distinct {x : String} {l : List String} : x ∈ distinct l ↔ x ∈ l := by
  induction l with
  | nil => simp [distinct]
  | cons a rest ih =>
    simp only [distinct]
    split
    · rename_i h
      simp only [h, List.not_mem_nil, false_iff] at ih
      simp [ih]
    · rename_i b more h
      rw [h] at ih
      split
      · rename_i hab
        subst hab
        rw [ih, List.mem_cons]
        refine ⟨.inr, fun hx => hx.elim (fun e => ?_) id⟩
        exact ih.1 (by simp [e])
      · simp only [List.mem_cons] at ih ⊢
        rw [ih]

theorem ascending_distinct {l : List String} (h : l.Pairwise (· ≤ ·)) :
    (distinct l).Pairwise (· < ·) := by
  induction l with
  | nil => exact .nil
  | cons a rest ih =>
    have hrest := List.pairwise_cons.1 h
    have ih := ih hrest.2
    simp only [distinct]
    split
    · simp
    · rename_i b more heq
      rw [heq] at ih
      split
      · exact ih
      · rename_i hab
        refine List.pairwise_cons.2 ⟨fun x hx => ?_, ih⟩
        have hmem : x ∈ rest := mem_distinct.1 (by rw [heq]; exact hx)
        have hb : b ∈ rest := mem_distinct.1 (by rw [heq]; simp)
        have hlt : a < b := by
          rcases key_trichotomy a b with h' | h' | h'
          · exact h'
          · exact absurd h' hab
          · exact absurd (String.le_antisymm (hrest.1 b hb) (String.not_lt.1
              (String.lt_asymm h'))) hab
        rcases List.mem_cons.1 hx with e | hx
        · exact e ▸ hlt
        · exact String.lt_trans hlt ((List.pairwise_cons.1 ih).1 x hx)

/-- The set of the texts in a list. -/
def ofList (l : List String) : OrderedSet :=
  ⟨distinct (l.mergeSort fun a b => decide (a ≤ b)), ascending_distinct (by
    have h := @List.pairwise_mergeSort String (fun a b => decide (a ≤ b))
      (fun a b c hab hbc => by
        simp only [decide_eq_true_eq] at *
        exact String.le_trans hab hbc)
      (fun a b => by
        simp only [Bool.or_eq_true, decide_eq_true_eq]
        exact String.le_total a b) l
    exact h.imp fun hab => by simpa using hab)⟩

/-- How many members a set has. -/
def size (s : OrderedSet) : Nat := s.members.length

instance : Membership String OrderedSet := ⟨fun s x => x ∈ s.members⟩

instance (x : String) (s : OrderedSet) : Decidable (x ∈ s) :=
  inferInstanceAs (Decidable (x ∈ s.members))

theorem mem_def {x : String} {s : OrderedSet} : x ∈ s ↔ x ∈ s.members := Iff.rfl

@[simp] theorem mem_ofList {x : String} {l : List String} : x ∈ ofList l ↔ x ∈ l := by
  simp only [mem_def, ofList, mem_distinct, List.mem_mergeSort]

theorem nodup_members (s : OrderedSet) : s.members.Nodup :=
  s.ascending.imp fun h e => absurd h (by rw [e]; exact String.lt_irrefl _)

end OrderedSet

end StagedRollout
