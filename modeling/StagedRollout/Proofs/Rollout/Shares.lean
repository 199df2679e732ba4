/-
# Shares

The groups of a partition as its definition says they are, apart from how they are computed
(`Apportioned`): runs of the sorted set whose sizes are rounded down, the rest in the last one, or
the listed subsets.  A definition that makes sense (`Valid`) apportions a set in exactly one way
(`existsUnique_apportioned`), and a partition is that one way or a refusal for a stated reason.

The runs have their sizes because the set does not run out before the last of them: numbers that
are rounded down add up to at most what they are parts of (`sum_share_le`).  All of this is so as
long as the percentages can be added up (`SumFits`).  Where their sum wraps around to 100, groups
are made of a definition that makes no sense, and unless the set is empty they are not what it says
(`partition_apportions`).
-/
import StagedRollout.Proofs.Rollout.Partition

namespace StagedRollout

namespace Partition

/-! ## Runs of given sizes -/

/-- Groups are runs of a set in its order: runs of the given sizes, then one with the rest. -/
structure Runs (targets : OrderedSet) (sizes : List Nat) (rest : Nat)
    (plans : List (List TargetId)) : Prop where
  concat : plans.flatten = targets.members
  sizes : plans.map List.length = sizes ++ [rest]

namespace Runs

variable {targets : OrderedSet} {sizes : List Nat} {rest rest' : Nat}
  {plans plans' : List (List TargetId)}

/-- The last run has all that the others leave. -/
lemma sum_add_rest (h : Runs targets sizes rest plans) : sizes.sum + rest = targets.size := by
  have hlength := List.length_flatten (L := plans)
  rw [h.concat, h.sizes, List.sum_append, List.sum_singleton] at hlength
  exact hlength.symm

/-- Runs are determined by the sizes of all but the last. -/
lemma unique (h : Runs targets sizes rest plans) (h' : Runs targets sizes rest' plans') :
    plans = plans' := by
  have hrest : rest = rest' := Nat.add_left_cancel (h.sum_add_rest.trans h'.sum_add_rest.symm)
  refine List.eq_iff_flatten_eq.2 ⟨h.concat.trans h'.concat.symm, ?_⟩
  rw [h.sizes, h'.sizes, hrest]

end Runs

/-- Runs have the sizes they are cut to, where the list does not run out. -/
lemma map_length_split {sizes : List Nat} (hne : sizes ≠ []) {targets : List TargetId}
    (h : sizes.sum ≤ targets.length) :
    (split sizes targets).map List.length =
      sizes.dropLast ++ [targets.length - sizes.dropLast.sum] := by
  induction sizes generalizing targets with
  | nil => exact absurd rfl hne
  | cons size sizes ih =>
    cases sizes with
    | nil => simp [split]
    | cons next sizes =>
      have hsum : size + (next :: sizes).sum ≤ targets.length := by
        simpa only [List.sum_cons] using h
      have hdrop : (next :: sizes).sum ≤ (targets.drop size).length := by
        rw [List.length_drop]
        omega
      have htake : (targets.take size).length = size :=
        List.length_take_of_le (Nat.le_trans (Nat.le_add_right _ _) hsum)
      rw [split, List.map_cons, ih (List.cons_ne_nil _ _) hdrop, htake, List.length_drop,
        List.dropLast_cons_cons, List.sum_cons, Nat.sub_sub]
      rfl

lemma runs_split {targets : OrderedSet} {sizes : List Nat} (hne : sizes ≠ [])
    (h : sizes.sum ≤ targets.size) :
    Runs targets sizes.dropLast (targets.size - sizes.dropLast.sum)
      (split sizes targets.members) :=
  ⟨flatten_split_of_ne_nil hne _, map_length_split hne h⟩

/-- What the last run is cut to is at most what is left for it. -/
lemma getLast_le_rest {sizes : List Nat} {size all : Nat} (hlast : sizes.getLast? = some size)
    (h : sizes.sum ≤ all) : size ≤ all - sizes.dropLast.sum := by
  obtain ⟨front, rfl⟩ := List.getLast?_eq_some_iff.1 hlast
  rw [List.sum_append, List.sum_singleton] at h
  rw [List.dropLast_concat]
  omega

/-! ## Percentages of a size -/

/-- Parts that are rounded down are together at most the part that their percentages are
together. -/
lemma sum_share_le_share (size : Nat) (weights : List Nat) :
    (weights.map (share size)).sum ≤ share size weights.sum := by
  induction weights with
  | nil => simp
  | cons weight weights ih =>
    have hadd : share size weight + share size weights.sum ≤ share size (weight + weights.sum) := by
      unfold share
      rw [Nat.mul_add]
      exact Nat.div_add_div_le_add_div
    rw [List.map_cons, List.sum_cons, List.sum_cons]
    exact Nat.le_trans (Nat.add_le_add_left ih _) hadd

lemma sum_share_le {size : Nat} {weights : List Nat} (h : weights.sum = 100) :
    (weights.map (share size)).sum ≤ size := by
  have hle := sum_share_le_share size weights
  rwa [h, share, Nat.mul_div_cancel _ (by decide)] at hle

lemma percentageSum_eq_mod (weights : List Nat) :
    percentageSum weights = weights.sum % (Text.max32 + 1) := by
  rw [percentageSum, total_eq_sum]

/-! ## Groups as they are defined -/

/-- Groups are what a definition makes of a set. -/
def Apportioned (targets : OrderedSet) : GroupSpec → List (List TargetId) → Prop
  | .percentages weights, plans =>
    ∃ rest, Runs targets (weights.dropLast.map (share targets.size)) rest plans ∧
      ∀ percent, weights.getLast? = some percent → share targets.size percent ≤ rest
  | .count n, plans =>
    ∃ rest, Runs targets (List.replicate (n - 1) (targets.size / n)) rest plans ∧
      rest = targets.size - (n - 1) * (targets.size / n) ∧ rest < targets.size / n + n
  | .explicit subsets, plans => plans = subsets ∧ subsets.flatten.Perm targets.members

/-- A definition makes one thing of a set. -/
lemma Apportioned.unique {targets : OrderedSet} {spec : GroupSpec}
    {plans plans' : List (List TargetId)} (h : Apportioned targets spec plans)
    (h' : Apportioned targets spec plans') : plans = plans' := by
  cases spec with
  | percentages weights =>
    obtain ⟨rest, hruns, -⟩ := h
    obtain ⟨rest', hruns', -⟩ := h'
    exact hruns.unique hruns'
  | count n =>
    obtain ⟨rest, hruns, -⟩ := h
    obtain ⟨rest', hruns', -⟩ := h'
    exact hruns.unique hruns'
  | explicit subsets => exact h.1.trans h'.1.symm

lemma apportioned_percentages {targets : OrderedSet} {weights : List Nat} (hne : weights ≠ [])
    (hle : (weights.map (share targets.size)).sum ≤ targets.size) :
    Apportioned targets (.percentages weights)
      (split (weights.map (share targets.size)) targets.members) := by
  have hruns := runs_split (by simpa using hne) hle
  rw [← List.map_dropLast] at hruns
  refine ⟨_, hruns, fun percent hlast => ?_⟩
  rw [List.map_dropLast]
  refine getLast_le_rest ?_ hle
  rw [List.getLast?_map, hlast, Option.map_some]

/-- The percentages of groups that are what they say take no more than there is. -/
lemma Apportioned.sum_share_le {targets : OrderedSet} {weights : List Nat}
    {plans : List (List TargetId)} (h : Apportioned targets (.percentages weights) plans) :
    (weights.map (share targets.size)).sum ≤ targets.size := by
  obtain ⟨rest, hruns, hlast⟩ := h
  have hsum := hruns.sum_add_rest
  cases hweights : weights.getLast? with
  | none =>
    rw [List.getLast?_eq_none_iff.1 hweights]
    exact Nat.zero_le _
  | some percent =>
    obtain ⟨front, rfl⟩ := List.getLast?_eq_some_iff.1 hweights
    have hrest := hlast percent hweights
    rw [List.dropLast_concat] at hsum
    rw [List.map_append, List.sum_append, List.map_singleton, List.sum_singleton]
    omega

/-- The group that takes the rest is larger than the others by less than their number. -/
lemma rest_lt {size n : Nat} (hn : n ≠ 0) :
    size - (n - 1) * (size / n) < size / n + n := by
  have hpos : 0 < n := Nat.pos_of_ne_zero hn
  have hothers : n * (size / n) = (n - 1) * (size / n) + size / n := by
    rw [← Nat.succ_mul, Nat.succ_eq_add_one, Nat.sub_add_cancel hpos]
  have hmod : size % n < n := Nat.mod_lt size hpos
  calc size - (n - 1) * (size / n)
      = n * (size / n) + size % n - (n - 1) * (size / n) := by rw [Nat.div_add_mod]
    _ = size / n + size % n := by rw [hothers, Nat.add_assoc, Nat.add_sub_cancel_left]
    _ < size / n + n := Nat.add_lt_add_left hmod _

lemma apportioned_count (targets : OrderedSet) {n : Nat} (hn : n ≠ 0) :
    Apportioned targets (.count n)
      (split (List.replicate n (targets.size / n)) targets.members) := by
  have hne : List.replicate n (targets.size / n) ≠ [] := by simpa using hn
  have hle : (List.replicate n (targets.size / n)).sum ≤ targets.size := by
    rw [List.sum_replicate, smul_eq_mul]
    exact Nat.mul_div_le _ _
  have hruns := runs_split hne hle
  rw [List.dropLast_replicate, List.sum_replicate, smul_eq_mul] at hruns
  exact ⟨_, hruns, rfl, rest_lt hn⟩

/-! ## Definitions that make sense -/

/-- The parts of a definition make up the whole. -/
def Complete (targets : OrderedSet) : GroupSpec → Prop
  | .percentages weights => 0 ∉ weights ∧ weights.sum = 100
  | .count _ => True
  | .explicit subsets => subsets.flatten.Perm targets.members

/-- The percentages of a definition can be added up in 32 bits. -/
def SumFits : GroupSpec → Prop
  | .percentages weights => weights.sum ≤ Text.max32
  | .count _ | .explicit _ => True

instance : DecidablePred SumFits
  | .percentages weights => Nat.decLe weights.sum Text.max32
  | .count _ | .explicit _ => .isTrue trivial

/-- A definition of groups makes sense for a set and within a quota. -/
structure Valid (targets : OrderedSet) (quota : Quota) (spec : GroupSpec) : Prop where
  some_group : spec.groupCount ≠ 0
  count_le : spec.groupCount ≤ min quota.maxGroups groupIndexLimit
  complete : Complete targets spec

lemma checkGroupCount_eq_ok_iff {count : Nat} {quota : Quota} :
    checkGroupCount count quota = .ok () ↔
      count ≠ 0 ∧ count ≤ min quota.maxGroups groupIndexLimit := by
  unfold checkGroupCount groupLimit
  by_cases hzero : count = 0
  · simp [hzero]
  · rw [if_neg hzero]
    by_cases hlimit : min quota.maxGroups groupIndexLimit < count
    · rw [if_pos hlimit]
      exact iff_of_false (by simp) fun h => Nat.not_le_of_lt hlimit h.2
    · rw [if_neg hlimit]
      exact iff_of_true rfl ⟨hzero, Nat.le_of_not_lt hlimit⟩

/-- Devices of the set that were not seen, each listed once, are seen without complaint. -/
lemma coverOne_of_nodup {targets : OrderedSet} {index : Nat} {l : List TargetId}
    {seen : OrderedMap Unit} (hnodup : l.Nodup) (hsub : ∀ t ∈ l, t ∈ targets)
    (hnew : ∀ t ∈ l, seen.find? t = none) : ∃ seen', coverOne targets index l seen = .ok seen' := by
  induction l generalizing seen with
  | nil => exact ⟨seen, rfl⟩
  | cons t l ih =>
    obtain ⟨hnotin, hnodup⟩ := List.nodup_cons.1 hnodup
    have hmem : t ∈ targets := hsub t List.mem_cons_self
    have hnone : seen.find? t = none := hnew t List.mem_cons_self
    rw [coverOne, if_neg (not_not_intro hmem), if_neg (by simp [hnone])]
    refine ih hnodup (fun x hx => hsub x (List.mem_cons_of_mem _ hx)) fun x hx => ?_
    have hx' : x ≠ t := fun e => hnotin (e ▸ hx)
    rw [OrderedMap.find?_insert, if_neg hx']
    exact hnew x (List.mem_cons_of_mem _ hx)

lemma coverAll_of_nodup {targets : OrderedSet} {index : Nat} {subsets : List (List TargetId)}
    {seen : OrderedMap Unit} (hnodup : subsets.flatten.Nodup)
    (hsub : ∀ t ∈ subsets.flatten, t ∈ targets)
    (hnew : ∀ t ∈ subsets.flatten, seen.find? t = none) :
    ∃ seen', coverAll targets index subsets seen = .ok seen' := by
  induction subsets generalizing index seen with
  | nil => exact ⟨seen, rfl⟩
  | cons subset subsets ih =>
    rw [List.flatten_cons] at hnodup hsub hnew
    obtain ⟨hone, hrest, hdisjoint⟩ := List.nodup_append'.1 hnodup
    obtain ⟨middle, hmiddle⟩ : ∃ middle, coverOne targets index subset seen = .ok middle :=
      coverOne_of_nodup hone (fun t ht => hsub t (List.mem_append_left _ ht))
        fun t ht => hnew t (List.mem_append_left _ ht)
    rw [coverAll, hmiddle]
    refine ih hrest (fun t ht => hsub t (List.mem_append_right _ ht)) fun t ht => ?_
    -- a later device is neither in this subset nor was it seen before
    have hfind := (covered_of_coverOne hmiddle).find t
    rw [hnew t (List.mem_append_right _ ht)] at hfind
    have hother : t ∉ subset := fun hsubset => hdisjoint hsubset ht
    simpa [hother] using hfind

/-- **Subsets pass the check exactly if they are a partition of the set.** -/
theorem checkCover_eq_ok_iff {targets : OrderedSet} {subsets : List (List TargetId)} :
    checkCover targets subsets = .ok () ↔ subsets.flatten.Perm targets.members := by
  refine ⟨perm_of_checkCover, fun hperm => ?_⟩
  obtain ⟨seen, hseen⟩ : ∃ seen, coverAll targets 0 subsets .empty = .ok seen :=
    coverAll_of_nodup (hperm.nodup_iff.2 targets.nodup_members)
      (fun t ht => hperm.mem_iff.1 ht) fun _ _ => rfl
  have hlength : seen.entries.length = targets.size := by
    rw [(covered_of_coverAll hseen).length, OrderedSet.size, ← hperm.length_eq]
    simp [OrderedMap.empty]
  rw [checkCover, hseen]
  exact if_pos hlength

/-- Percentages give groups exactly if their sum as it is counted is 100. -/
lemma groups_percentages_eq_ok_iff {targets : OrderedSet} {weights : List Nat} {quota : Quota}
    {plans : List (List TargetId)} :
    groups targets (.percentages weights) quota = .ok plans ↔
      (weights.length ≠ 0 ∧ weights.length ≤ min quota.maxGroups groupIndexLimit) ∧
        0 ∉ weights ∧ weights.sum % (Text.max32 + 1) = 100 ∧
        plans = split (weights.map (share targets.size)) targets.members := by
  rw [← percentageSum_eq_mod, ← checkGroupCount_eq_ok_iff]
  constructor
  · intro h
    obtain ⟨⟨⟩, hcount, h⟩ := Except.bind_eq_ok h
    dsimp only at h
    split at h
    · cases h
    rename_i hpositive
    split at h
    · cases h
    rename_i hsum
    exact ⟨hcount, hpositive, not_not.1 hsum, (Except.ok.inj h).symm⟩
  · rintro ⟨hcount, hpositive, hsum, rfl⟩
    unfold groups
    dsimp only [GroupSpec.groupCount]
    rw [hcount, Except.ok_bind, if_neg hpositive, if_neg (not_not_intro hsum)]
    rfl

/-- A definition gives groups exactly if it makes sense, and these are the groups it defines. -/
lemma groups_eq_ok_iff {targets : OrderedSet} {spec : GroupSpec} {quota : Quota}
    {plans : List (List TargetId)} (hfits : SumFits spec) :
    groups targets spec quota = .ok plans ↔
      Valid targets quota spec ∧ Apportioned targets spec plans := by
  cases spec with
  | percentages weights =>
    rw [groups_percentages_eq_ok_iff, Nat.mod_eq_of_lt (Nat.lt_succ_of_le hfits)]
    constructor
    · rintro ⟨⟨hzero, hlimit⟩, hpositive, hsum, rfl⟩
      exact ⟨⟨hzero, hlimit, hpositive, hsum⟩,
        apportioned_percentages (by simpa using hzero) (sum_share_le hsum)⟩
    · rintro ⟨⟨hzero, hlimit, hpositive, hsum⟩, hplans⟩
      have hne : weights ≠ [] := by simpa [GroupSpec.groupCount] using hzero
      exact ⟨⟨hzero, hlimit⟩, hpositive, hsum,
        hplans.unique (apportioned_percentages hne (sum_share_le hsum))⟩
  | count n =>
    constructor
    · intro h
      obtain ⟨⟨⟩, hcount, h⟩ := Except.bind_eq_ok h
      obtain ⟨hzero, hlimit⟩ := checkGroupCount_eq_ok_iff.1 hcount
      obtain rfl := Except.ok.inj h
      exact ⟨⟨hzero, hlimit, trivial⟩, apportioned_count targets hzero⟩
    · rintro ⟨⟨hzero, hlimit, -⟩, hplans⟩
      unfold groups
      rw [checkGroupCount_eq_ok_iff.2 ⟨hzero, hlimit⟩, Except.ok_bind,
        hplans.unique (apportioned_count targets hzero)]
      rfl
  | explicit subsets =>
    constructor
    · intro h
      obtain ⟨⟨⟩, hcount, h⟩ := Except.bind_eq_ok h
      obtain ⟨hzero, hlimit⟩ := checkGroupCount_eq_ok_iff.1 hcount
      obtain ⟨⟨⟩, hcover, h⟩ := Except.bind_eq_ok h
      obtain rfl := Except.ok.inj h
      have hperm := checkCover_eq_ok_iff.1 hcover
      exact ⟨⟨hzero, hlimit, hperm⟩, rfl, hperm⟩
    · rintro ⟨⟨hzero, hlimit, hcomplete⟩, hplans⟩
      unfold groups
      rw [checkGroupCount_eq_ok_iff.2 ⟨hzero, hlimit⟩, Except.ok_bind]
      dsimp only
      rw [checkCover_eq_ok_iff.2 hcomplete, hplans.1]
      rfl

/-- **A definition that makes sense makes exactly one thing of a set.** -/
theorem existsUnique_apportioned {targets : OrderedSet} {quota : Quota} {spec : GroupSpec}
    (h : Valid targets quota spec) : ∃! plans, Apportioned targets spec plans := by
  refine existsUnique_of_exists_of_unique ?_ fun _ _ => Apportioned.unique
  obtain ⟨hzero, -, hcomplete⟩ := h
  cases spec with
  | percentages weights =>
    exact ⟨_, apportioned_percentages (by simpa [GroupSpec.groupCount] using hzero)
      (sum_share_le hcomplete.2)⟩
  | count n => exact ⟨_, apportioned_count targets hzero⟩
  | explicit subsets => exact ⟨subsets, rfl, hcomplete⟩

/-! ## Quotas -/

lemma checkGroupSizes_of_le {quota : Quota} {index : Nat} {plans : List (List TargetId)}
    (h : ∀ plan ∈ plans, plan.length ≤ quota.maxActionsPerGroup) :
    checkGroupSizes quota index plans = .ok () := by
  induction plans generalizing index with
  | nil => rfl
  | cons plan plans ih =>
    rw [checkGroupSizes, if_neg (Nat.not_lt_of_le (h plan List.mem_cons_self))]
    exact ih fun x hx => h x (List.mem_cons_of_mem _ hx)

lemma checkQuota_eq_ok_iff {quota : Quota} {plans : List (List TargetId)} :
    checkQuota quota plans = .ok () ↔
      (∀ plan ∈ plans, plan.length ≤ quota.maxActionsPerGroup) ∧
        (plans.map List.length).sum ≤ quota.maxActions := by
  refine ⟨of_checkQuota, fun ⟨hsizes, htotal⟩ => ?_⟩
  unfold checkQuota
  rw [checkGroupSizes_of_le hsizes, Except.ok_bind, total_eq_sum]
  exact if_neg (Nat.not_lt_of_le htotal)

/-- Some group that a definition makes of a set is larger than a quota allows, or the set is. -/
def TooLarge (targets : OrderedSet) (quota : Quota) (spec : GroupSpec) : Prop :=
  (∃ plans, Apportioned targets spec plans ∧
    ∃ plan ∈ plans, quota.maxActionsPerGroup < plan.length) ∨
    quota.maxActions < targets.size

lemma Apportioned.perm {targets : OrderedSet} {spec : GroupSpec} {plans : List (List TargetId)}
    (h : Apportioned targets spec plans) : plans.flatten.Perm targets.members := by
  cases spec with
  | percentages weights =>
    obtain ⟨rest, hruns, -⟩ := h
    rw [hruns.concat]
  | count n =>
    obtain ⟨rest, hruns, -⟩ := h
    rw [hruns.concat]
  | explicit subsets =>
    obtain ⟨rfl, hperm⟩ := h
    exact hperm

lemma Apportioned.sum_sizes {targets : OrderedSet} {spec : GroupSpec}
    {plans : List (List TargetId)} (h : Apportioned targets spec plans) :
    (plans.map List.length).sum = targets.size := by
  rw [← List.length_flatten]
  exact h.perm.length_eq

/-- The groups a definition makes pass the check of the quota exactly if they are not too large. -/
lemma Apportioned.checkQuota_eq_ok_iff {targets : OrderedSet} {quota : Quota} {spec : GroupSpec}
    {plans : List (List TargetId)} (h : Apportioned targets spec plans) :
    checkQuota quota plans = .ok () ↔ ¬ TooLarge targets quota spec := by
  rw [Partition.checkQuota_eq_ok_iff, h.sum_sizes, TooLarge, not_or, Nat.not_lt]
  refine and_congr_left' ⟨?_, ?_⟩
  · rintro hsizes ⟨plans', hplans', plan, hplan, hlt⟩
    obtain rfl := h.unique hplans'
    exact Nat.not_lt_of_le (hsizes plan hplan) hlt
  · intro hnone plan hplan
    exact Nat.le_of_not_lt fun hlt => hnone ⟨plans, h, plan, hplan, hlt⟩

lemma partition_of_groups_error {targets : OrderedSet} {spec : GroupSpec} {quota : Quota}
    {fault : GroupFault} (h : groups targets spec quota = .error fault) :
    partition targets spec quota = .error (.invalidGroups fault) := by
  unfold partition
  rw [h]
  rfl

lemma partition_of_groups_ok {targets : OrderedSet} {spec : GroupSpec} {quota : Quota}
    {plans : List (List TargetId)} (h : groups targets spec quota = .ok plans) :
    partition targets spec quota =
      ((checkQuota quota plans).mapError .quotaExceeded >>= fun _ => pure plans) := by
  unfold partition
  rw [h]
  rfl

/-- **What a partition accepts**, of percentages that can be added up.  A definition is refused
exactly if it does not make sense: it has no group or too many, a percentage is 0, the percentages
do not sum to 100, or the listed subsets are not the set with each device once.  The quota is
exceeded exactly if the definition makes sense and a group of it, or the set, is too large.
Otherwise the partition succeeds. -/
theorem partition_decides (targets : OrderedSet) (spec : GroupSpec) (quota : Quota)
    (hfits : SumFits spec) :
    ((∃ fault, partition targets spec quota = .error (.invalidGroups fault)) ↔
      ¬ Valid targets quota spec) ∧
    ((∃ fault, partition targets spec quota = .error (.quotaExceeded fault)) ↔
      Valid targets quota spec ∧ TooLarge targets quota spec) ∧
    ((∃ plans, partition targets spec quota = .ok plans) ↔
      Valid targets quota spec ∧ ¬ TooLarge targets quota spec) := by
  cases hgroups : groups targets spec quota with
  | error fault =>
    have hinvalid : ¬ Valid targets quota spec := fun hvalid => by
      obtain ⟨plans, hplans, -⟩ := existsUnique_apportioned hvalid
      rw [(groups_eq_ok_iff hfits).2 ⟨hvalid, hplans⟩] at hgroups
      cases hgroups
    simp [partition_of_groups_error hgroups, hinvalid]
  | ok plans =>
    obtain ⟨hvalid, hplans⟩ := (groups_eq_ok_iff hfits).1 hgroups
    have hsmall : checkQuota quota plans = .ok () ↔ ¬ TooLarge targets quota spec :=
      hplans.checkQuota_eq_ok_iff
    cases hquota : checkQuota quota plans with
    | error fault =>
      have hlarge : TooLarge targets quota spec := by
        by_contra hnot
        rw [hsmall.2 hnot] at hquota
        cases hquota
      have hrefused : partition targets spec quota = .error (.quotaExceeded fault) := by
        rw [partition_of_groups_ok hgroups, hquota]
        rfl
      simp [hrefused, hvalid, hlarge]
    | ok =>
      have hdone : partition targets spec quota = .ok plans := by
        rw [partition_of_groups_ok hgroups, hquota]
        rfl
      simp [hdone, hvalid, hsmall.1 hquota]

/-- Two devices do not make sense of percentages that sum to 99. -/
theorem partition_decides_ninetyNine :
    ∃ fault, partition (.ofList ["a", "b"]) (.percentages [50, 49]) .standard =
      .error (.invalidGroups fault) := by
  have hfits : SumFits (.percentages [50, 49]) := by decide
  refine (partition_decides (.ofList ["a", "b"]) (.percentages [50, 49]) .standard hfits).1.2 ?_
  exact fun hvalid => absurd hvalid.complete.2 (by decide)

end Partition

end StagedRollout
