/-
# Compact JSON is read back

The text that a value is written as without white space is read as that value, and nothing
behind the value is touched.  Behind a number must stand something that does not go on with it;
inside a text that is a comma or a closing bracket.

A value fits if its numbers are natural numbers of 64 bits and its arrays and objects are not
nested too deep.  The fuel of the readers is spent on levels and on items, and each of them
takes a character at least, so the length of the text is enough.
-/
import Mathlib
import StagedRollout.Json.Printer
import StagedRollout.Json.Reader
import StagedRollout.Proofs.Except

namespace StagedRollout.Json

open Text

/-! ## Strings -/

lemma hexValue_hexDigit : ∀ n < 16, hexValue (hexDigit n) = some n := by decide

lemma ofUnit_of_lt {n : Nat} (h : n < 32) : Piece.ofUnit n = .char (Char.ofNat n) := by
  rw [Piece.ofUnit, if_neg]
  simp [isLeading, isTrailing]
  omega

lemma stringPieces_end (rest : List Char) : stringPieces ('"' :: rest) = some ([], rest) := by
  unfold stringPieces
  simp

lemma stringPieces_plain {c : Char} (hquote : c ≠ '"') (hslash : c ≠ '\\') (h : 32 ≤ c.toNat)
    (cs : List Char) : stringPieces (c :: cs) =
      (stringPieces cs).map fun (ps, rest) => (.char c :: ps, rest) := by
  rw [stringPieces.eq_def]
  simp only [hquote, hslash, if_false, if_neg (Nat.not_lt.2 h)]

lemma stringPieces_simple {e c : Char} (h : simpleEscape e = some c) (cs : List Char) :
    stringPieces ('\\' :: e :: cs) =
      (stringPieces cs).map fun (ps, rest) => (.char c :: ps, rest) := by
  have hu : e ≠ 'u' := by
    rintro rfl
    cases h
  rw [stringPieces.eq_def]
  simp [hu, h]

lemma stringPieces_unit {a₁ a₂ a₃ a₄ c : Char} (h : hex4 a₁ a₂ a₃ a₄ = some c.toNat)
    (hc : c.toNat < 32) (cs : List Char) : stringPieces ('\\' :: 'u' :: a₁ :: a₂ :: a₃ :: a₄ :: cs) =
      (stringPieces cs).map fun (ps, rest) => (.char c :: ps, rest) := by
  rw [stringPieces.eq_def]
  simp [h, ofUnit_of_lt hc]

/-- The hexadecimal digits of a control character. -/
lemma hex4_control {n : Nat} (h : n < 32) :
    hex4 '0' '0' (hexDigit (n / 16)) (hexDigit (n % 16)) = some n := by
  have hzero : hexValue '0' = some 0 := by decide
  simp only [hex4, hzero, hexValue_hexDigit (n / 16) (by omega),
    hexValue_hexDigit (n % 16) (by omega)]
  exact congrArg some (by omega)

/-- One character is one piece, however it is escaped. -/
lemma stringPieces_escape (c : Char) (cs : List Char) :
    stringPieces (escape c ++ cs) =
      (stringPieces cs).map fun (ps, rest) => (.char c :: ps, rest) := by
  unfold escape
  split_ifs with h₁ h₂ h₃ h₄ h₅ h₆ h₇ hcontrol
  · subst h₁
    exact stringPieces_simple (by decide) cs
  · subst h₂
    exact stringPieces_simple (by decide) cs
  · subst h₃
    exact stringPieces_simple (by decide) cs
  · subst h₄
    exact stringPieces_simple (by decide) cs
  · subst h₅
    exact stringPieces_simple (by decide) cs
  · subst h₆
    exact stringPieces_simple (by decide) cs
  · subst h₇
    exact stringPieces_simple (by decide) cs
  · exact stringPieces_unit (hex4_control hcontrol) hcontrol cs
  · exact stringPieces_plain h₁ h₂ (Nat.not_lt.1 hcontrol) cs

lemma stringPieces_quote (cs rest : List Char) :
    stringPieces (cs.flatMap escape ++ '"' :: rest) = some (cs.map .char, rest) := by
  induction cs with
  | nil => exact stringPieces_end rest
  | cons c cs ih =>
    rw [List.flatMap_cons, List.append_assoc, stringPieces_escape, ih]
    rfl

lemma joinPieces_map_char (cs : List Char) : joinPieces (cs.map .char) = some cs := by
  induction cs with
  | nil => rfl
  | cons c cs ih => simp [joinPieces, ih]

/-- Behind its opening quote, a string is read up to its closing one. -/
lemma string_quote (s : String) (rest : List Char) :
    string (s.toList.flatMap escape ++ '"' :: rest) = (.str s, some rest) := by
  rw [string, stringPieces_quote]
  simp [joinPieces_map_char]

/-! ## Numbers -/

/-- The digits of a number, from its last digit on. -/
lemma digits_induction {motive : Nat → List Char → Prop}
    (one : ∀ n < 10, motive n [n.digitChar])
    (more : ∀ n, 0 < n → ∀ d < 10, motive n (digits n) →
      motive (n * 10 + d) (digits n ++ [d.digitChar])) (n : Nat) : motive n (digits n) := by
  induction n using Nat.strongRecOn with
  | ind n ih =>
    rw [digits, Nat.toDigits_eq_if (by decide)]
    split_ifs with hn
    · exact one n hn
    · have h := more (n / 10) (by omega) (n % 10) (by omega) (ih _ (by omega))
      rwa [show n / 10 * 10 + n % 10 = n by omega] at h

lemma digitValue_digitChar : ∀ d < 10, digitValue d.digitChar = some d := by decide

lemma all_isDigit_digits (n : Nat) : ∀ c ∈ digits n, isDigit c = true := by
  refine digits_induction (motive := fun _ cs => ∀ c ∈ cs, isDigit c = true) ?_ ?_ n
  · intro n hn c hc
    obtain rfl := List.mem_singleton.1 hc
    simp [isDigit, digitValue_digitChar n hn]
  · intro n _ d hd ih c hc
    obtain hc | hc := List.mem_append.1 hc
    · exact ih c hc
    · obtain rfl := List.mem_singleton.1 hc
      simp [isDigit, digitValue_digitChar d hd]

lemma natOfDigits_digits (n : Nat) : natOfDigits (digits n) = n := by
  refine digits_induction (motive := fun n cs => natOfDigits cs = n) ?_ ?_ n
  · intro n hn
    simp [natOfDigits, digitValue_digitChar n hn]
  · intro n _ d hd ih
    rw [natOfDigits, List.foldl_append, ← natOfDigits, ih]
    simp [digitValue_digitChar d hd]

/-- A number but zero does not begin with a zero. -/
lemma digits_head (n : Nat) :
    ∃ c cs, digits n = c :: cs ∧ (c = '0' → cs = []) := by
  have hzero : ∀ d < 10, d ≠ 0 → d.digitChar ≠ '0' := by decide
  suffices h : ∃ c cs, digits n = c :: cs ∧ (n ≠ 0 → c ≠ '0') ∧ (n = 0 → cs = []) by
    obtain ⟨c, cs, hcs, hne, hnil⟩ := h
    refine ⟨c, cs, hcs, fun hc => hnil ?_⟩
    by_contra hn
    exact hne hn hc
  refine digits_induction
    (motive := fun n ds => ∃ c cs, ds = c :: cs ∧ (n ≠ 0 → c ≠ '0') ∧ (n = 0 → cs = [])) ?_ ?_ n
  · exact fun n hn => ⟨_, [], rfl, hzero n hn, fun _ => rfl⟩
  · rintro n hpos d - ⟨c, cs, hcs, hne, -⟩
    exact ⟨c, _, by rw [hcs]; rfl, fun _ => hne (by omega), fun h => by omega⟩

/-- What stands behind a value inside a text: nothing, a comma or a closing bracket. -/
def Ends (rest : List Char) : Prop := ∀ c ∈ rest.head?, c = ',' ∨ c = ']' ∨ c = '\x7d'

lemma Ends.nil : Ends [] := by simp [Ends]

lemma Ends.cons {c : Char} (h : c = ',' ∨ c = ']' ∨ c = '\x7d') (rest : List Char) :
    Ends (c :: rest) := by
  simpa [Ends] using h

lemma Ends.cases {rest : List Char} (h : Ends rest) :
    rest = [] ∨ ∃ c cs, rest = c :: cs ∧ (c = ',' ∨ c = ']' ∨ c = '\x7d') := by
  cases rest with
  | nil => exact .inl rfl
  | cons c cs => exact .inr ⟨c, cs, rfl, h c rfl⟩

lemma someDigits_digits (n : Nat) {rest : List Char} (h : Ends rest) :
    someDigits (digits n ++ rest) = some (digits n, rest) := by
  have hrest : rest.takeWhile isDigit = [] ∧ rest.dropWhile isDigit = rest := by
    obtain rfl | ⟨c, cs, rfl, rfl | rfl | rfl⟩ := h.cases
    · exact ⟨rfl, rfl⟩
    all_goals exact ⟨List.takeWhile_cons_of_neg (by decide), List.dropWhile_cons_of_neg (by decide)⟩
  have hall := all_isDigit_digits n
  obtain ⟨c, cs, hcs, -⟩ := digits_head n
  rw [someDigits, List.takeWhile_append_of_pos hall, List.dropWhile_append_of_pos hall, hrest.1,
    hrest.2, List.append_nil, hcs]

lemma wholePart_digits (n : Nat) {rest : List Char} (h : Ends rest) :
    wholePart (digits n ++ rest) = some (digits n, rest) := by
  obtain ⟨c, cs, hcs, hzero⟩ := digits_head n
  rw [wholePart, someDigits_digits n h, hcs]
  split
  · next heq =>
    simp only [Option.some.injEq, Prod.mk.injEq, List.cons.injEq] at heq
    obtain ⟨⟨rfl, rfl⟩, -⟩ := heq
    cases hzero rfl
  · rfl

lemma fractionPart_of_ends {rest : List Char} (h : Ends rest) :
    fractionPart rest = some ([], rest) := by
  obtain rfl | ⟨c, cs, rfl, rfl | rfl | rfl⟩ := h.cases <;> rfl

lemma exponentPart_of_ends {rest : List Char} (h : Ends rest) :
    exponentPart rest = some ([], rest) := by
  obtain rfl | ⟨c, cs, rfl, rfl | rfl | rfl⟩ := h.cases <;> rfl

lemma le_foldl_digits (cs : List Char) (n : Nat) :
    n ≤ cs.foldl (fun n c => n * 10 + (digitValue c).getD 0) n := by
  induction cs generalizing n with
  | nil => exact Nat.le_refl n
  | cons c cs ih =>
    have hstep : n ≤ n * 10 + (digitValue c).getD 0 := by omega
    exact Nat.le_trans hstep (ih _)

/-- Digits of a value of 64 bits are all taken. -/
lemma leadingValue_of_le {cs : List Char} {n : Nat}
    (h : cs.foldl (fun n c => n * 10 + (digitValue c).getD 0) n ≤ max64) :
    leadingValue n cs = (cs.foldl (fun n c => n * 10 + (digitValue c).getD 0) n, 0) := by
  induction cs generalizing n with
  | nil => rfl
  | cons c cs ih =>
    have hnext := Nat.le_trans (le_foldl_digits cs _) h
    rw [leadingValue]
    simp only [List.foldl_cons] at h hnext ⊢
    rw [if_pos hnext, ih h]

lemma rounded_le {n : Nat} (h : n ≠ 0) : Magnitude.rounded n ≤ 2 * n := by
  have hround : ∀ a b : Nat, Ratio.roundedDiv a b ≤ a / b + 1 := by
    intro a b
    unfold Ratio.roundedDiv
    dsimp only
    split_ifs <;> omega
  have hpow : 2 ^ (n.log2 - 52) ≤ n :=
    Nat.le_trans (Nat.pow_le_pow_right (by omega) (Nat.sub_le _ _)) (Nat.log2_self_le h)
  calc Magnitude.rounded n
      = Ratio.roundedDiv n (2 ^ (n.log2 - 52)) * 2 ^ (n.log2 - 52) := by
        simp only [Magnitude.rounded, Nat.shiftLeft_eq, Nat.one_mul]
    _ ≤ (n / 2 ^ (n.log2 - 52) + 1) * 2 ^ (n.log2 - 52) := Nat.mul_le_mul_right _ (hround _ _)
    _ = n / 2 ^ (n.log2 - 52) * 2 ^ (n.log2 - 52) + 2 ^ (n.log2 - 52) := Nat.succ_mul _ _
    _ ≤ 2 * n := by
        have := Nat.div_mul_le_self n (2 ^ (n.log2 - 52))
        omega

/-- No number of 64 bits is beyond the doubles. -/
lemma roughlyExceeds_zero {n : Nat} (h : n ≤ max64) : Magnitude.roughlyExceeds n 0 = false := by
  have hone : Magnitude.rounded 1 = 1 := by decide +kernel
  by_cases hn : n = 0
  · simp [Magnitude.roughlyExceeds, hn]
  · have hlimit : 2 * max64 < Magnitude.limit := by decide +kernel
    have hsmall : ¬Magnitude.limit ≤ Magnitude.rounded n := by
      have := rounded_le hn
      omega
    show Magnitude.roughlyExceeds n (Int.ofNat 0) = false
    simp [Magnitude.roughlyExceeds, hone, Nat.lt_of_not_le hsmall]

lemma isBeyond_digits {n : Nat} (h : n ≤ max64) : isBeyond (digits n) [] [] = false := by
  have hvalue : (digits n).foldl (fun n c => n * 10 + (digitValue c).getD 0) 0 = n :=
    natOfDigits_digits n
  have hlead : leadingValue 0 (digits n) = (n, 0) := by
    rw [leadingValue_of_le (by rwa [hvalue]), hvalue]
  rw [isBeyond, hlead]
  exact roughlyExceeds_zero h

/-- The digits of a number of 64 bits are that number. -/
lemma number_digits {n : Nat} (h : n ≤ max64) {rest : List Char} (hends : Ends rest) :
    number false (digits n ++ rest) = (.nat n, some rest) := by
  simp [number, wholePart_digits n hends, fractionPart_of_ends hends, exponentPart_of_ends hends,
    isBeyond_digits h, natOfDigits_digits]

/-! ## Values -/

/-- Natural numbers of 64 bits only, and no more than a number of levels. -/
inductive Fits : Nat → Json → Prop
  | null {room : Nat} : Fits room .null
  | bool {room : Nat} (b : Bool) : Fits room (.bool b)
  | nat {room n : Nat} (h : n ≤ max64) : Fits room (.nat n)
  | str {room : Nat} (s : String) : Fits room (.str s)
  | arr {room : Nat} {items : List Json} (h : ∀ j ∈ items, Fits room j) :
      Fits (room + 1) (.arr items)
  | obj {room : Nat} {members : List (String × Json)} (h : ∀ m ∈ members, Fits room m.2) :
      Fits (room + 1) (.obj members)

lemma skipSpace_cons {c : Char} (h : isSpace c = false) (cs : List Char) :
    skipSpace (c :: cs) = c :: cs := by
  rw [skipSpace, List.dropWhile_cons_of_neg (by simp [h])]

/-- The text of a value begins with a character that is neither white space nor the end of an
array. -/
lemma compactChars_head {room : Nat} {j : Json} (h : Fits room j) :
    ∃ c cs, compactChars j = c :: cs ∧ isSpace c = false ∧ c ≠ ']' := by
  cases h with
  | null => exact ⟨_, _, rfl, by decide, by decide⟩
  | bool b => cases b <;> exact ⟨_, _, rfl, by decide, by decide⟩
  | @nat _ n h =>
    obtain ⟨c, cs, hcs, -⟩ := digits_head n
    have hdigit : isDigit c = true := all_isDigit_digits n c (by simp [hcs])
    refine ⟨c, cs, hcs, ?_, ?_⟩
    · simp only [isSpace, Bool.or_eq_false_iff, decide_eq_false_iff_not]
      refine ⟨⟨⟨?_, ?_⟩, ?_⟩, ?_⟩ <;> rintro rfl <;> exact absurd hdigit (by decide)
    · rintro rfl
      exact absurd hdigit (by decide)
  | str s => exact ⟨_, _, rfl, by decide, by decide⟩
  | arr h => exact ⟨_, _, rfl, by decide, by decide⟩
  | obj h => exact ⟨_, _, rfl, by decide, by decide⟩

/-- An item reader that reads the text of a value. -/
def ReadsBack (item : List Char → Progress Draft) (j : Json) : Prop :=
  ∀ rest, Ends rest → item (compactChars j ++ rest) = (Draft.ofJson j, some rest)

lemma items_compact {item : List Char → Progress Draft} {j : Json} {js : List Json} {n : Nat}
    (hitem : ∀ j' ∈ j :: js, ReadsBack item j') (hn : (j :: js).length ≤ n) (rest : List Char) :
    items item n (compactItems (j :: js) ++ ']' :: rest) =
      (Draft.ofItems (j :: js), some rest) := by
  induction js generalizing j n with
  | nil =>
    obtain ⟨n, rfl⟩ := Nat.exists_eq_add_of_le' (Nat.le_trans (Nat.succ_pos _) hn)
    have hread := hitem j (by simp) (']' :: rest) (.cons (by simp) rest)
    simp [compactItems, items, hread, skipSpace_cons (c := ']') (by decide), Draft.ofItems]
  | cons j' js ih =>
    obtain ⟨n, rfl⟩ := Nat.exists_eq_add_of_le' (Nat.le_trans (Nat.succ_pos _) hn)
    have hread := hitem j (by simp) (',' :: (compactItems (j' :: js) ++ ']' :: rest))
      (.cons (by simp) _)
    have hmore := ih (j := j') (n := n) (fun x hx => hitem x (List.mem_cons_of_mem _ hx))
      (by simpa using hn)
    simp [compactItems, items, hread, skipSpace_cons (c := ',') (by decide), hmore,
      Draft.ofItems]

lemma member_compact {item : List Char → Progress Draft} (name : String) {j : Json}
    (hitem : ReadsBack item j) {rest : List Char} (hends : Ends rest) :
    member item (quote name ++ ':' :: (compactChars j ++ rest)) =
      ((.str name, Draft.ofJson j), some rest) := by
  have hstring := string_quote name (':' :: (compactChars j ++ rest))
  simp [member, quote, skipSpace_cons (c := '"') (by decide),
    skipSpace_cons (c := ':') (by decide), hstring, hitem rest hends]

lemma members_compact {item : List Char → Progress Draft} {m : String × Json}
    {ms : List (String × Json)} {n : Nat} (hitem : ∀ m' ∈ m :: ms, ReadsBack item m'.2)
    (hn : (m :: ms).length ≤ n) (rest : List Char) :
    members item n (compactMembers (m :: ms) ++ '\x7d' :: rest) =
      (Draft.ofMembers (m :: ms), some rest) := by
  induction ms generalizing m n with
  | nil =>
    obtain ⟨n, rfl⟩ := Nat.exists_eq_add_of_le' (Nat.le_trans (Nat.succ_pos _) hn)
    have hread := member_compact m.1 (hitem m (by simp))
      (Ends.cons (c := '\x7d') (by simp) rest)
    simp [compactMembers, members, hread, skipSpace_cons (c := '\x7d') (by decide),
      Draft.ofMembers]
  | cons m' ms ih =>
    obtain ⟨n, rfl⟩ := Nat.exists_eq_add_of_le' (Nat.le_trans (Nat.succ_pos _) hn)
    have hread := member_compact m.1 (hitem m (by simp))
      (Ends.cons (c := ',') (by simp) (compactMembers (m' :: ms) ++ '\x7d' :: rest))
    have hmore := ih (m := m') (n := n) (fun x hx => hitem x (List.mem_cons_of_mem _ hx))
      (by simpa using hn)
    simp [compactMembers, members, hread, skipSpace_cons (c := ',') (by decide), hmore,
      Draft.ofMembers]

/-! ### Lengths -/

lemma length_le_compactItems {j : Json} {js : List Json} (h : j ∈ js) :
    (compactChars j).length ≤ (compactItems js).length := by
  induction js with
  | nil => simp at h
  | cons i js ih =>
    cases js with
    | nil => simp_all [compactItems]
    | cons i' js =>
      obtain rfl | h := List.mem_cons.1 h
      · simp [compactItems]
      · have := ih h
        simp [compactItems]
        omega

lemma length_items_le {js : List Json} (h : ∀ j ∈ js, compactChars j ≠ []) :
    js.length ≤ (compactItems js).length := by
  induction js with
  | nil => simp
  | cons i js ih =>
    have hpos : 0 < (compactChars i).length := List.length_pos_iff.2 (h i (by simp))
    cases js with
    | nil =>
      simp [compactItems]
      omega
    | cons i' js =>
      have := ih fun j hj => h j (List.mem_cons_of_mem _ hj)
      simp [compactItems] at this ⊢
      omega

lemma length_le_compactMembers {m : String × Json} {ms : List (String × Json)} (h : m ∈ ms) :
    (compactChars m.2).length ≤ (compactMembers ms).length := by
  induction ms with
  | nil => simp at h
  | cons i ms ih =>
    cases ms with
    | nil =>
      obtain rfl := List.mem_singleton.1 h
      simp [compactMembers]
      omega
    | cons i' ms =>
      obtain rfl | h := List.mem_cons.1 h
      · simp [compactMembers]
        omega
      · have := ih h
        simp [compactMembers]
        omega

lemma length_members_le (ms : List (String × Json)) :
    ms.length ≤ (compactMembers ms).length := by
  induction ms with
  | nil => simp
  | cons i ms ih =>
    cases ms with
    | nil => simp [compactMembers]; omega
    | cons i' ms =>
      simp [compactMembers] at ih ⊢
      omega

/-! ### Values of each kind -/

lemma value_nat {n : Nat} (h : n ≤ max64) (fuel room : Nat) :
    ReadsBack (value (fuel + 1) room) (.nat n) := by
  intro rest hends
  have hnumber := number_digits h hends
  obtain ⟨c, cs, hcs, hspace, -⟩ := compactChars_head (.nat h : Fits room (.nat n))
  rw [compactChars] at hcs ⊢
  have hdigit : isDigit c = true := all_isDigit_digits n c (by simp [hcs])
  have hne : ∀ d, isDigit d = false → c ≠ d := by
    rintro d hd rfl
    rw [hdigit] at hd
    cases hd
  rw [hcs, List.cons_append] at hnumber ⊢
  simp only [value, skipSpace_cons hspace]
  rw [if_neg (hne _ (by decide)), if_neg (hne _ (by decide)), if_neg (hne _ (by decide)),
    if_neg (hne _ (by decide)), if_neg (hne _ (by decide)), if_neg (hne _ (by decide)),
    if_neg (hne _ (by decide)), hnumber]
  rfl

lemma value_arr {js : List Json} {fuel room : Nat}
    (hitem : ∀ j ∈ js, ReadsBack (value fuel room) j) (hfits : ∀ j ∈ js, Fits room j)
    (hfuel : js.length ≤ fuel) : ReadsBack (value (fuel + 1) (room + 1)) (.arr js) := by
  intro rest _
  cases js with
  | nil =>
    simp [value, compactChars, compactItems, skipSpace_cons (c := '[') (by decide),
      skipSpace_cons (c := ']') (by decide), nested, Draft.ofJson, Draft.ofItems]
  | cons j js =>
    have hread := items_compact hitem hfuel rest
    -- the bracket of an empty array is not what stands behind the opening one
    obtain ⟨c, cs, hcs, hspace, hclose⟩ := compactChars_head (hfits j (by simp))
    obtain ⟨cs', hcs'⟩ : ∃ cs', compactItems (j :: js) = c :: cs' := by
      cases js with
      | nil => exact ⟨cs, by rw [compactItems, hcs]⟩
      | cons i js => exact ⟨_, by rw [compactItems, hcs]; rfl⟩
    rw [hcs', List.cons_append] at hread
    simp [value, compactChars, hcs', skipSpace_cons (c := '[') (by decide),
      skipSpace_cons hspace, hclose, hread, nested, Draft.ofJson]

lemma value_obj {ms : List (String × Json)} {fuel room : Nat}
    (hitem : ∀ m ∈ ms, ReadsBack (value fuel room) m.2) (hfuel : ms.length ≤ fuel) :
    ReadsBack (value (fuel + 1) (room + 1)) (.obj ms) := by
  intro rest _
  cases ms with
  | nil =>
    simp [value, compactChars, compactMembers, skipSpace_cons (c := '\x7b') (by decide),
      skipSpace_cons (c := '\x7d') (by decide), nested, Draft.ofJson, Draft.ofMembers]
  | cons m ms =>
    have hread := members_compact hitem hfuel rest
    obtain ⟨cs', hcs'⟩ : ∃ cs', compactMembers (m :: ms) = '"' :: cs' := by
      cases ms <;> exact ⟨_, by rw [compactMembers, quote]; rfl⟩
    rw [hcs', List.cons_append] at hread
    simp [value, compactChars, hcs', skipSpace_cons (c := '\x7b') (by decide),
      skipSpace_cons (c := '"') (by decide), hread, nested, Draft.ofJson]

/-- **The text of a value that fits is read as that value, whatever follows it.** -/
theorem value_compact {room : Nat} {j : Json} (h : Fits room j) {fuel : Nat}
    (hfuel : (compactChars j).length < fuel) : ReadsBack (value fuel room) j := by
  induction h generalizing fuel with
  | null =>
    intro rest _
    obtain ⟨n, rfl⟩ := Nat.exists_eq_add_one_of_ne_zero (Nat.ne_zero_of_lt hfuel)
    simp [value, compactChars, skipSpace_cons (c := 'n') (by decide), word, dropStart,
      Draft.ofJson]
  | bool b =>
    intro rest _
    obtain ⟨n, rfl⟩ := Nat.exists_eq_add_one_of_ne_zero (Nat.ne_zero_of_lt hfuel)
    cases b <;> simp [value, compactChars, skipSpace_cons (c := 't') (by decide),
      skipSpace_cons (c := 'f') (by decide), word, dropStart, Draft.ofJson]
  | nat h =>
    obtain ⟨n, rfl⟩ := Nat.exists_eq_add_one_of_ne_zero (Nat.ne_zero_of_lt hfuel)
    exact value_nat h _ _
  | str s =>
    intro rest _
    obtain ⟨n, rfl⟩ := Nat.exists_eq_add_one_of_ne_zero (Nat.ne_zero_of_lt hfuel)
    simp [value, compactChars, quote, skipSpace_cons (c := '"') (by decide), string_quote,
      Draft.ofJson]
  | @arr room js hfits ih =>
    obtain ⟨n, rfl⟩ := Nat.exists_eq_add_one_of_ne_zero (Nat.ne_zero_of_lt hfuel)
    simp only [compactChars, List.length_cons, List.length_append, List.length_nil] at hfuel
    have hcount : js.length ≤ (compactItems js).length := length_items_le fun j hj => by
      obtain ⟨c, cs, hcs, -⟩ := compactChars_head (hfits j hj)
      simp [hcs]
    refine value_arr (fun j hj => ih j hj ?_) hfits (by omega)
    exact Nat.lt_of_le_of_lt (length_le_compactItems hj) (by omega)
  | @obj room ms _ ih =>
    obtain ⟨n, rfl⟩ := Nat.exists_eq_add_one_of_ne_zero (Nat.ne_zero_of_lt hfuel)
    simp only [compactChars, List.length_cons, List.length_append, List.length_nil] at hfuel
    have hcount := length_members_le ms
    refine value_obj (fun m hm => ih m hm ?_) (by omega)
    exact Nat.lt_of_le_of_lt (length_le_compactMembers hm) (by omega)

/-- A reader is given the value whose text it reads. -/
lemma ofText_compact {α : Type} (read : Reader α) {j : Json} (h : Fits depthLimit j) :
    read.ofText j.compact = read (Draft.ofJson j) := by
  have hvalue := value_compact h (Nat.lt_succ_self _) [] .nil
  rw [List.append_nil] at hvalue
  rw [Reader.ofText, compact, String.toList_ofList, Draft.ofChars, hvalue]
  cases hread : read (Draft.ofJson j) with
  | error e =>
    simp only [hread]
    rfl
  | ok a => simp [hread, atEnd, skipSpace]

end StagedRollout.Json
