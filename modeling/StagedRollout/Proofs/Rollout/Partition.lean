/-
# Partitions

Where a partition succeeds, its groups taken together are the set of devices, each device once,
and no group nor the whole is larger than the quota allows (`partition_fair`).
-/
import StagedRollout.Proofs.Except
import StagedRollout.Proofs.Store.Rows
import StagedRollout.Rollout.Partition

namespace StagedRollout

namespace Partition

/-! ## Runs -/

/-- Runs lose nothing. -/
lemma flatten_split (size : Nat) (sizes : List Nat) (targets : List TargetId) :
    (split (size :: sizes) targets).flatten = targets := by
  induction sizes generalizing size targets with
  | nil => simp [split]
  | cons next sizes ih =>
    rw [split, List.flatten_cons, ih, List.take_append_drop]

lemma length_split (sizes : List Nat) (targets : List TargetId) :
    (split sizes targets).length = sizes.length := by
  induction sizes generalizing targets with
  | nil => rfl
  | cons size sizes ih =>
    cases sizes with
    | nil => rfl
    | cons next sizes =>
      rw [split, List.length_cons, ih]
      rfl

lemma flatten_split_of_ne_nil {sizes : List Nat} (h : sizes ≠ []) (targets : List TargetId) :
    (split sizes targets).flatten = targets := by
  cases sizes with
  | nil => exact absurd rfl h
  | cons size sizes => exact flatten_split size sizes targets

/-! ## Explicit subsets -/

lemma length_insert_of_none {seen : OrderedMap Unit} {t : TargetId} (h : seen.find? t = none) :
    (seen.insert t ()).entries.length = seen.entries.length + 1 := by
  have hcount := OrderedMap.countP_insertEntry (fun _ => true) t () seen.ascending
  rw [OrderedMap.find?] at h
  rw [h] at hcount
  simpa [OrderedMap.insert] using hcount

/-- Members were seen: they are devices of the set and new, and each of them is seen once. -/
structure Covered (targets : OrderedSet) (l : List TargetId) (seen seen' : OrderedMap Unit) :
    Prop where
  nodup : l.Nodup
  subset : ∀ t ∈ l, t ∈ targets
  new : ∀ t ∈ l, seen.find? t = none
  find : ∀ t, (seen'.find? t).isSome = true ↔ t ∈ l ∨ (seen.find? t).isSome = true
  length : seen'.entries.length = seen.entries.length + l.length

lemma Covered.nil (targets : OrderedSet) (seen : OrderedMap Unit) : Covered targets [] seen seen :=
  ⟨List.nodup_nil, by simp, by simp, by simp, rfl⟩

lemma Covered.append {targets : OrderedSet} {l l' : List TargetId} {a b c : OrderedMap Unit}
    (h : Covered targets l a b) (h' : Covered targets l' b c) : Covered targets (l ++ l') a c := by
  have hnew : ∀ t ∈ l', t ∉ l ∧ a.find? t = none := by
    intro t ht
    have hnone := h'.new t ht
    have hiff := h.find t
    rw [hnone] at hiff
    simp only [Option.isSome_none, Bool.false_eq_true, false_iff, not_or] at hiff
    exact ⟨hiff.1, by simpa using hiff.2⟩
  refine ⟨List.nodup_append'.2 ⟨h.nodup, h'.nodup, fun t ht ht' => (hnew t ht').1 ht⟩, ?_, ?_, ?_,
    ?_⟩
  · intro t ht
    rcases List.mem_append.1 ht with ht | ht
    · exact h.subset t ht
    · exact h'.subset t ht
  · intro t ht
    rcases List.mem_append.1 ht with ht | ht
    · exact h.new t ht
    · exact (hnew t ht).2
  · intro t
    rw [h'.find, h.find, List.mem_append, ← or_assoc, or_comm (a := t ∈ l')]
  · rw [h'.length, h.length, List.length_append, Nat.add_assoc]

lemma covered_of_coverOne {targets : OrderedSet} {index : Nat} {l : List TargetId}
    {seen seen' : OrderedMap Unit} (h : coverOne targets index l seen = .ok seen') :
    Covered targets l seen seen' := by
  induction l generalizing seen with
  | nil =>
    obtain rfl : seen = seen' := by simpa [coverOne] using h
    exact .nil targets seen
  | cons t l ih =>
    rw [coverOne] at h
    split at h
    · simp at h
    rename_i hmem
    split at h
    · simp at h
    rename_i hnew
    have hnone : seen.find? t = none := by simpa using hnew
    have hone : Covered targets [t] seen (seen.insert t ()) := by
      refine ⟨List.nodup_singleton t, ?_, ?_, ?_, length_insert_of_none hnone⟩
      · simpa using hmem
      · simpa using hnone
      · intro x
        rw [OrderedMap.find?_insert]
        by_cases hx : x = t <;> simp [hx]
    exact hone.append (ih h)

lemma covered_of_coverAll {targets : OrderedSet} {index : Nat} {subsets : List (List TargetId)}
    {seen seen' : OrderedMap Unit} (h : coverAll targets index subsets seen = .ok seen') :
    Covered targets subsets.flatten seen seen' := by
  induction subsets generalizing index seen with
  | nil =>
    obtain rfl : seen = seen' := by simpa [coverAll] using h
    exact .nil targets seen
  | cons subset subsets ih =>
    rw [coverAll] at h
    split at h
    · simp at h
    rename_i middle hone
    rw [List.flatten_cons]
    exact (covered_of_coverOne hone).append (ih h)

/-- Subsets that pass the check are a partition of the set. -/
lemma perm_of_checkCover {targets : OrderedSet} {subsets : List (List TargetId)}
    (h : checkCover targets subsets = .ok ()) : subsets.flatten.Perm targets.members := by
  rw [checkCover] at h
  split at h
  · simp at h
  rename_i seen hall
  split at h
  · rename_i hsize
    have hcovered := covered_of_coverAll hall
    have hlen : subsets.flatten.length = targets.members.length := by
      have hlength := hcovered.length
      simp only [OrderedMap.empty, List.length_nil, Nat.zero_add] at hlength
      exact hlength.symm.trans hsize
    -- devices of the set, each of them once and as many as it has
    have hsub : subsets.flatten.Subperm targets.members :=
      List.subperm_of_subset hcovered.nodup hcovered.subset
    exact hsub.perm_of_length_le (Nat.le_of_eq hlen.symm)
  · simp at h

/-! ## Groups -/

lemma of_checkGroupCount {count : Nat} {quota : Quota} (h : checkGroupCount count quota = .ok ()) :
    count ≠ 0 ∧ count ≤ groupIndexLimit := by
  rw [checkGroupCount] at h
  split at h
  · simp at h
  rename_i hzero
  split at h
  · simp at h
  rename_i hlimit
  exact ⟨hzero, Nat.le_trans (Nat.le_of_not_lt hlimit) (Nat.min_le_right _ _)⟩

/-- **The groups of a definition are a partition of the set**, and as many as it says. -/
theorem of_groups {targets : OrderedSet} {spec : GroupSpec} {quota : Quota}
    {plans : List (List TargetId)} (h : groups targets spec quota = .ok plans) :
    plans.flatten.Perm targets.members ∧ plans.length = spec.groupCount ∧
      plans.length ≤ groupIndexLimit := by
  obtain ⟨⟨⟩, hcount, h⟩ := Except.bind_eq_ok h
  obtain ⟨hzero, hlimit⟩ := of_checkGroupCount hcount
  have hgoal : plans.flatten.Perm targets.members ∧ plans.length = spec.groupCount := by
    cases spec with
    | percentages weights =>
      dsimp only at h
      split at h
      · cases h
      split at h
      · cases h
      obtain rfl := Except.ok.inj h
      have hne : weights.map (share targets.size) ≠ [] := by
        simpa [GroupSpec.groupCount] using hzero
      rw [flatten_split_of_ne_nil hne, length_split, List.length_map]
      exact ⟨.refl _, rfl⟩
    | count n =>
      obtain rfl := Except.ok.inj h
      have hne : List.replicate n (targets.size / n) ≠ [] := by
        simpa [GroupSpec.groupCount] using hzero
      rw [flatten_split_of_ne_nil hne, length_split, List.length_replicate]
      exact ⟨.refl _, rfl⟩
    | explicit subsets =>
      obtain ⟨⟨⟩, hcover, h⟩ := Except.bind_eq_ok h
      obtain rfl := Except.ok.inj h
      exact ⟨perm_of_checkCover hcover, rfl⟩
  exact ⟨hgoal.1, hgoal.2, hgoal.2 ▸ hlimit⟩

/-! ## Sizes -/

lemma total_eq_sum (sizes : List Nat) : total sizes = sizes.sum := by
  induction sizes with
  | nil => rfl
  | cons size sizes ih => rw [total, ih, List.sum_cons]

lemma of_checkGroupSizes {quota : Quota} {index : Nat} {plans : List (List TargetId)}
    (h : checkGroupSizes quota index plans = .ok ()) :
    ∀ plan ∈ plans, plan.length ≤ quota.maxActionsPerGroup := by
  induction plans generalizing index with
  | nil => simp
  | cons plan plans ih =>
    rw [checkGroupSizes] at h
    split at h
    · simp at h
    rename_i hle
    intro x hx
    rcases List.mem_cons.1 hx with rfl | hx
    · exact Nat.le_of_not_lt hle
    · exact ih h x hx

lemma of_checkQuota {quota : Quota} {plans : List (List TargetId)}
    (h : checkQuota quota plans = .ok ()) :
    (∀ plan ∈ plans, plan.length ≤ quota.maxActionsPerGroup) ∧
      (plans.map List.length).sum ≤ quota.maxActions := by
  obtain ⟨⟨⟩, hsizes, h⟩ := Except.bind_eq_ok h
  refine ⟨of_checkGroupSizes hsizes, ?_⟩
  rw [← total_eq_sum]
  by_contra hlt
  simp [Nat.lt_of_not_le hlt] at h

lemma of_checkGrowth {size all added : Nat} {quota : Quota}
    (h : checkGrowth size all added quota = .ok ()) :
    size + added ≤ quota.maxActionsPerGroup ∧ all + added ≤ quota.maxActions := by
  rw [checkGrowth] at h
  split at h
  · simp at h
  rename_i hgroup
  split at h
  · simp at h
  rename_i hall
  exact ⟨Nat.le_of_not_lt hgroup, Nat.le_of_not_lt hall⟩

/-- What a partition within a quota is. -/
structure Fair (targets : OrderedSet) (quota : Quota) (plans : List (List TargetId)) : Prop where
  /-- The groups together are the set, each device once. -/
  cover : plans.flatten.Perm targets.members
  count_le : plans.length ≤ groupIndexLimit
  group_le : ∀ plan ∈ plans, plan.length ≤ quota.maxActionsPerGroup
  total_le : (plans.map List.length).sum ≤ quota.maxActions

lemma Fair.nodup {targets : OrderedSet} {quota : Quota} {plans : List (List TargetId)}
    (h : Fair targets quota plans) : plans.flatten.Nodup :=
  h.cover.nodup_iff.2 targets.nodup_members

lemma Fair.size_eq {targets : OrderedSet} {quota : Quota} {plans : List (List TargetId)}
    (h : Fair targets quota plans) : (plans.map List.length).sum = targets.size := by
  rw [← List.length_flatten]
  exact h.cover.length_eq

end Partition

/-- **A partition that succeeds is fair.** -/
theorem partition_fair {targets : OrderedSet} {spec : GroupSpec} {quota : Quota}
    {plans : List (List TargetId)} (h : partition targets spec quota = .ok plans) :
    Partition.Fair targets quota plans := by
  obtain ⟨plans', hgroups, h⟩ := Except.bind_eq_ok h
  obtain ⟨⟨⟩, hquota, h⟩ := Except.bind_eq_ok h
  obtain rfl := Except.ok.inj h
  obtain ⟨hcover, -, hcount⟩ := Partition.of_groups (Except.mapError_eq_ok hgroups)
  obtain ⟨hgroup, htotal⟩ := Partition.of_checkQuota (Except.mapError_eq_ok hquota)
  exact ⟨hcover, hcount, hgroup, htotal⟩

end StagedRollout
