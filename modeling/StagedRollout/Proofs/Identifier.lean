/-
# Ids can be taken apart

A group's id is its rollout's name, a colon and four digits; an action's id is its group's id, a
colon and any text at all.  Names have no colon, so an id says to which rollout and to which group
it belongs, whatever the ids of devices look like, and the groups of a rollout are in key order
when their indices ascend.
-/
import StagedRollout.Operator.Create
import StagedRollout.Proofs.Ordered.Scan

namespace StagedRollout

/-! ## Four digits -/

namespace Text

lemma digitChar_lt_iff {m n : Nat} (hm : m < 10) (hn : n < 10) :
    m.digitChar < n.digitChar ↔ m < n := by
  rw [Char.lt_def, UInt32.lt_iff_toNat_lt]
  have h₁ := Nat.toNat_digitChar_of_lt_ten hm
  have h₂ := Nat.toNat_digitChar_of_lt_ten hn
  simp only [Char.toNat] at h₁ h₂
  omega

lemma toList_fourDigits {n : Nat} (h : n < groupIndexLimit) :
    (fourDigits n).toList =
      [(n / 1000).digitChar, (n / 100 % 10).digitChar, (n / 10 % 10).digitChar,
        (n % 10).digitChar] := by
  unfold groupIndexLimit at h
  have hdigits : (toString n).toList = Nat.toDigits 10 n := by
    rw [Nat.toString_eq_ofList_toDigits, String.toList_ofList]
  have hlength : (toString n).length = (Nat.toDigits 10 n).length := by
    rw [← String.length_toList, hdigits]
  rw [fourDigits, padLeft, String.toList_append, String.toList_ofList, hlength, hdigits]
  have hif := fun k => Nat.toDigits_eq_if (b := 10) (n := k) (by decide)
  -- the number of digits is the number of times that ten goes into it, and one
  by_cases h₁ : n < 10
  · have hd : Nat.toDigits 10 n = [(n % 10).digitChar] := by
      rw [hif, if_pos h₁, Nat.mod_eq_of_lt h₁]
    simp [hd, show n / 1000 = 0 by omega, show n / 100 % 10 = 0 by omega,
      show n / 10 % 10 = 0 by omega]
  by_cases h₂ : n < 100
  · have hd : Nat.toDigits 10 n = [(n / 10 % 10).digitChar, (n % 10).digitChar] := by
      rw [hif, if_neg h₁, hif, if_pos (by omega), show n / 10 = n / 10 % 10 by omega]
      simp
    simp [hd, show n / 1000 = 0 by omega, show n / 100 % 10 = 0 by omega]
  by_cases h₃ : n < 1000
  · have hd : Nat.toDigits 10 n =
        [(n / 100 % 10).digitChar, (n / 10 % 10).digitChar, (n % 10).digitChar] := by
      rw [hif, if_neg h₁, hif, if_neg (by omega), hif, if_pos (by omega),
        show n / 10 / 10 = n / 100 % 10 by omega]
      rfl
    simp [hd, show n / 1000 = 0 by omega]
  · have hd : Nat.toDigits 10 n = [(n / 1000).digitChar, (n / 100 % 10).digitChar,
        (n / 10 % 10).digitChar, (n % 10).digitChar] := by
      rw [hif, if_neg h₁, hif, if_neg (by omega), hif, if_neg (by omega), hif,
        if_pos (by omega), show n / 10 / 10 / 10 = n / 1000 by omega,
        show n / 10 / 10 % 10 = n / 100 % 10 by omega]
      rfl
    simp [hd]

/-- Below the limit of group indices, four digits are in the order of the numbers. -/
lemma toList_fourDigits_lt {m n : Nat} (hn : n < groupIndexLimit) (h : m < n) :
    (fourDigits m).toList < (fourDigits n).toList := by
  rw [toList_fourDigits hn, toList_fourDigits (Nat.lt_trans h hn)]
  unfold groupIndexLimit at hn
  simp only [List.cons_lt_cons_iff]
  have hlt : ∀ {a b : Nat}, a < 10 → b < 10 → a < b → a.digitChar < b.digitChar :=
    fun ha hb hab => (digitChar_lt_iff ha hb).2 hab
  -- the first digit in which the numbers differ decides
  by_cases h₁ : m / 1000 < n / 1000
  · exact .inl (hlt (by omega) (by omega) h₁)
  refine .inr ⟨congrArg _ (by omega), ?_⟩
  by_cases h₂ : m / 100 % 10 < n / 100 % 10
  · exact .inl (hlt (by omega) (by omega) h₂)
  refine .inr ⟨congrArg _ (by omega), ?_⟩
  by_cases h₃ : m / 10 % 10 < n / 10 % 10
  · exact .inl (hlt (by omega) (by omega) h₃)
  exact .inr ⟨congrArg _ (by omega), .inl (hlt (by omega) (by omega) (by omega))⟩

end Text

/-! ## Names and colons -/

lemma colon_notMem_of_isName {name : String} (h : NewRollout.isName name = true) :
    ':' ∉ name.toList := by
  unfold NewRollout.isName at h
  rw [Bool.and_eq_true] at h
  rcases hn : name.toList with _ | ⟨c, cs⟩
  · simp
  · rw [hn] at h
    simp only [Bool.and_eq_true, List.all_eq_true] at h
    obtain ⟨-, hc, hcs⟩ := h
    intro hmem
    rcases List.mem_cons.1 hmem with rfl | hmem
    · exact absurd hc (by decide)
    · exact absurd (hcs _ hmem) (by decide)

/-- A text without colons in front of a colon is the whole of what stands before the first one. -/
lemma eq_of_append_colon {a b x y : List Char} (ha : ':' ∉ a) (hb : ':' ∉ b)
    (h : a ++ ':' :: x = b ++ ':' :: y) : a = b ∧ x = y := by
  induction a generalizing b with
  | nil =>
    cases b with
    | nil => simpa using h
    | cons c b =>
      simp only [List.nil_append, List.cons_append, List.cons.injEq] at h
      exact absurd (h.1 ▸ List.mem_cons_self) hb
  | cons c a ih =>
    cases b with
    | nil =>
      simp only [List.nil_append, List.cons_append, List.cons.injEq] at h
      exact absurd (h.1 ▸ List.mem_cons_self) ha
    | cons d b =>
      simp only [List.cons_append, List.cons.injEq] at h
      obtain ⟨rfl, h⟩ := h
      obtain ⟨rfl, hxy⟩ := ih (fun hc => ha (List.mem_cons_of_mem _ hc))
        (fun hc => hb (List.mem_cons_of_mem _ hc)) h
      exact ⟨rfl, hxy⟩

lemma startsWith_colon_iff {parent key : String} :
    startsWith (parent ++ ":") key = true ↔
      ∃ rest, key.toList = parent.toList ++ ':' :: rest := by
  rw [startsWith_iff]
  simp

/-! ## Ids of groups -/

lemma toList_groupId (rollout : RolloutId) (index : Nat) :
    (RolloutGroup.idOf rollout index).toList =
      rollout.toList ++ ':' :: (Text.fourDigits index).toList := by
  simp [RolloutGroup.idOf]

/-- An id that a group of some rollout can have. -/
def IsGroupId (id : GroupId) : Prop :=
  ∃ rollout index, NewRollout.isName rollout = true ∧ index < groupIndexLimit ∧
    id = RolloutGroup.idOf rollout index

/-- Among the groups of one rollout, ids are in the order of the indices. -/
lemma groupId_lt {rollout : RolloutId} {i j : Nat} (hj : j < groupIndexLimit) (h : i < j) :
    RolloutGroup.idOf rollout i < RolloutGroup.idOf rollout j := by
  rw [String.lt_iff, toList_groupId, toList_groupId]
  exact List.append_left_lt (List.cons_lt_cons_iff.2
    (.inr ⟨rfl, Text.toList_fourDigits_lt hj h⟩))

/-- The id of a group says which rollout and which index it has. -/
lemma groupId_injective {r r' : RolloutId} {i j : Nat} (hr : NewRollout.isName r = true)
    (hr' : NewRollout.isName r' = true) (hi : i < groupIndexLimit) (hj : j < groupIndexLimit)
    (h : RolloutGroup.idOf r i = RolloutGroup.idOf r' j) : r = r' ∧ i = j := by
  have hlist := congrArg String.toList h
  rw [toList_groupId, toList_groupId] at hlist
  obtain ⟨hname, -⟩ := eq_of_append_colon (colon_notMem_of_isName hr)
    (colon_notMem_of_isName hr') hlist
  obtain rfl := String.ext hname
  refine ⟨rfl, ?_⟩
  rcases Nat.lt_trichotomy i j with hlt | heq | hlt
  · exact absurd h (String.ne_of_lt (groupId_lt hj hlt))
  · exact heq
  · exact absurd h.symm (String.ne_of_lt (groupId_lt hi hlt))

/-- The ids that begin with a rollout's name and a colon are those of its own groups. -/
lemma startsWith_groupId {r r' : RolloutId} (i : Nat) (hr : NewRollout.isName r = true)
    (hr' : NewRollout.isName r' = true) :
    startsWith (r ++ ":") (RolloutGroup.idOf r' i) = true ↔ r = r' := by
  rw [startsWith_colon_iff, toList_groupId]
  constructor
  · rintro ⟨rest, h⟩
    exact (String.ext (eq_of_append_colon (colon_notMem_of_isName hr')
      (colon_notMem_of_isName hr) h).1).symm
  · rintro rfl
    exact ⟨_, rfl⟩

/-! ## Ids of actions -/

lemma toList_actionId (group : GroupId) (target : TargetId) :
    (Action.idOf group target).toList = group.toList ++ ':' :: target.toList := by
  simp [Action.idOf]

/-- Group ids in front of a colon are the same where the texts behind them are. -/
lemma IsGroupId.eq_of_append {g g' : GroupId} (hg : IsGroupId g) (hg' : IsGroupId g')
    {x y : List Char} (h : g.toList ++ ':' :: x = g'.toList ++ ':' :: y) : g = g' ∧ x = y := by
  obtain ⟨r, i, hr, hi, rfl⟩ := hg
  obtain ⟨r', j, hr', hj, rfl⟩ := hg'
  rw [toList_groupId, toList_groupId, List.append_assoc, List.append_assoc, List.cons_append,
    List.cons_append] at h
  obtain ⟨hname, hrest⟩ := eq_of_append_colon (colon_notMem_of_isName hr)
    (colon_notMem_of_isName hr') h
  -- four digits on either side, so both ids end at the same place
  rw [Text.toList_fourDigits hi, Text.toList_fourDigits hj] at hrest
  simp only [List.cons_append, List.nil_append, List.cons.injEq] at hrest
  obtain ⟨h₁, h₂, h₃, h₄, -, hxy⟩ := hrest
  refine ⟨String.ext ?_, hxy⟩
  rw [toList_groupId, toList_groupId, hname, Text.toList_fourDigits hi,
    Text.toList_fourDigits hj, h₁, h₂, h₃, h₄]

/-- The id of an action says which group and which device it has, whatever the device is
called. -/
lemma actionId_injective {g g' : GroupId} (hg : IsGroupId g) (hg' : IsGroupId g')
    {t t' : TargetId} (h : Action.idOf g t = Action.idOf g' t') : g = g' ∧ t = t' := by
  have hlist := congrArg String.toList h
  rw [toList_actionId, toList_actionId] at hlist
  obtain ⟨hgroup, htarget⟩ := hg.eq_of_append hg' hlist
  exact ⟨hgroup, String.ext htarget⟩

/-- The ids that begin with a group's id and a colon are those of its own actions. -/
lemma startsWith_actionId {g g' : GroupId} (hg : IsGroupId g) (hg' : IsGroupId g')
    (t : TargetId) : startsWith (g ++ ":") (Action.idOf g' t) = true ↔ g = g' := by
  rw [startsWith_colon_iff, toList_actionId]
  constructor
  · rintro ⟨rest, h⟩
    exact (hg'.eq_of_append hg h).1.symm
  · rintro rfl
    exact ⟨_, rfl⟩

/-- The ids that begin with a rollout's name and a colon are those of the actions of its own
groups. -/
lemma startsWith_rollout_actionId {r r' : RolloutId} (i : Nat)
    (hr : NewRollout.isName r = true) (hr' : NewRollout.isName r' = true) (t : TargetId) :
    startsWith (r ++ ":") (Action.idOf (RolloutGroup.idOf r' i) t) = true ↔ r = r' := by
  rw [startsWith_colon_iff, toList_actionId, toList_groupId, List.append_assoc]
  constructor
  · rintro ⟨rest, h⟩
    exact (String.ext (eq_of_append_colon (colon_notMem_of_isName hr')
      (colon_notMem_of_isName hr) h).1).symm
  · rintro rfl
    exact ⟨_, rfl⟩

end StagedRollout
