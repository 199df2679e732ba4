/-
# Keys as bytes

Texts are compared character by character.  Written in UTF-8 and compared byte by byte they are in
the same order (`lt_iff_utf8`), and one begins with another one exactly if its bytes begin with
the other one's (`startsWith_iff_utf8`).  So it makes no difference to a table, and to what a scan
of it finds, whether its keys are texts or bytes.

The reason is that the encodings of two characters differ in a byte that both of them have, and the
smaller character has the smaller byte there (`DivergesBelow`).
-/
import Mathlib
import StagedRollout.Proofs.Ordered.Scan

namespace StagedRollout

/-- The bytes of a text in UTF-8. -/
def utf8 (s : String) : List UInt8 := s.toByteArray.data.toList

lemma utf8_eq_flatMap (s : String) : utf8 s = s.toList.flatMap String.utf8EncodeChar := by
  rw [utf8, ← String.utf8Encode_toList, List.utf8Encode, List.toList_data_toByteArray]

/-! ## The first byte that differs -/

/-- Two words differ in a byte that both of them have, and in the first such place the left one has
the smaller byte. -/
def DivergesBelow : List UInt8 → List UInt8 → Prop
  | x :: left, y :: right => x < y ∨ x = y ∧ DivergesBelow left right
  | _, _ => False

namespace DivergesBelow

variable {left right : List UInt8}

lemma lt (h : DivergesBelow left right) : left < right := by
  induction left generalizing right with
  | nil => cases h
  | cons x left ih =>
    cases right with
    | nil => cases h
    | cons y right => exact List.cons_lt_cons_iff.2 (h.imp_right fun ⟨hxy, h⟩ => ⟨hxy, ih h⟩)

/-- What stands behind two words that diverge does not matter. -/
lemma append (h : DivergesBelow left right) (rest rest' : List UInt8) :
    DivergesBelow (left ++ rest) (right ++ rest') := by
  induction left generalizing right with
  | nil => cases h
  | cons x left ih =>
    cases right with
    | nil => cases h
    | cons y right => exact h.imp_right fun ⟨hxy, h⟩ => ⟨hxy, ih h⟩

lemma append_left (h : DivergesBelow left right) (common : List UInt8) :
    DivergesBelow (common ++ left) (common ++ right) := by
  induction common with
  | nil => exact h
  | cons x common ih => exact .inr ⟨rfl, ih⟩

/-- A smaller first byte is enough. -/
lemma head {x y : Nat} (h : x < y) (hy : y < 256) (left right : List UInt8) :
    DivergesBelow (UInt8.ofNat x :: left) (UInt8.ofNat y :: right) := by
  refine .inl ?_
  rw [UInt8.lt_iff_toNat_lt, UInt8.toNat_ofNat', UInt8.toNat_ofNat', Nat.mod_eq_of_lt hy,
    Nat.mod_eq_of_lt (h.trans hy)]
  exact h

end DivergesBelow

/-! ## Characters -/

/-- A number as a first byte, which has room for so many values above a mark, and further bytes
with six bits each. -/
def byteWord (room mark : Nat) : Nat → Nat → List UInt8
  | 0, v => [UInt8.ofNat (v % room + mark)]
  | further + 1, v => byteWord room mark further (v / 64) ++ [UInt8.ofNat (v % 64 + 128)]

lemma byteWord_diverges (room mark further : Nat) {m n : Nat} (h : m < n)
    (hroom : room + mark ≤ 256) (hn : n < room * 64 ^ further) :
    DivergesBelow (byteWord room mark further m) (byteWord room mark further n) := by
  induction further generalizing m n with
  | zero =>
    rw [Nat.pow_zero, Nat.mul_one] at hn
    rw [byteWord, byteWord, Nat.mod_eq_of_lt hn, Nat.mod_eq_of_lt (h.trans hn)]
    exact .head (by omega) (by omega) [] []
  | succ further ih =>
    rw [Nat.pow_succ, ← Nat.mul_assoc] at hn
    -- the bits in front of the last byte decide first
    rcases Nat.lt_or_ge (m / 64) (n / 64) with hfront | hfront
    · exact (ih hfront (by omega)).append _ _
    · have hsame : m / 64 = n / 64 := by omega
      rw [byteWord, byteWord, hsame]
      exact (DivergesBelow.head (by omega) (by omega) [] []).append_left _

/-- The smaller one of two characters has the smaller byte where their encodings differ. -/
lemma encodeChar_diverges {c d : Char} (h : c < d) :
    DivergesBelow (String.utf8EncodeChar c) (String.utf8EncodeChar d) := by
  have hlt : c.val.toNat < d.val.toNat := by rwa [Char.lt_def, UInt32.lt_iff_toNat_lt] at h
  have hd : d.val.toNat < 1114112 := by
    rcases d.valid with hvalid | ⟨-, hvalid⟩
    · exact hvalid.trans (by decide)
    · exact hvalid
  dsimp only [String.utf8EncodeChar]
  generalize c.val.toNat = m at *
  generalize d.val.toNat = n at *
  have hquotients : ∀ v : Nat, v / 4096 = v / 64 / 64 ∧ v / 262144 = v / 64 / 64 / 64 := by
    intro v
    omega
  rw [(hquotients m).1, (hquotients m).2, (hquotients n).1, (hquotients n).2]
  split_ifs
  -- the smaller character never has the longer encoding
  any_goals omega
  · exact .head hlt (by omega) _ _
  · exact .head (by omega) (by omega) _ _
  · exact .head (by omega) (by omega) _ _
  · exact .head (by omega) (by omega) _ _
  · exact byteWord_diverges 32 192 1 hlt (by omega) (by omega)
  · exact .head (by omega) (by omega) _ _
  · exact .head (by omega) (by omega) _ _
  · exact byteWord_diverges 16 224 2 hlt (by omega) (by omega)
  · exact .head (by omega) (by omega) _ _
  · exact byteWord_diverges 8 240 3 hlt (by omega) (by omega)

/-! ## The order of texts -/

lemma flatMap_encodeChar_lt {left right : List Char} (h : left < right) :
    left.flatMap String.utf8EncodeChar < right.flatMap String.utf8EncodeChar := by
  induction left generalizing right with
  | nil =>
    cases right with
    | nil => exact absurd h (List.lt_irrefl [])
    | cons d right =>
      obtain ⟨x, rest, hx⟩ := List.exists_cons_of_ne_nil (String.utf8EncodeChar_ne_nil (c := d))
      rw [List.flatMap_nil, List.flatMap_cons, hx]
      exact List.nil_lt_cons _ _
  | cons c left ih =>
    cases right with
    | nil => exact absurd h (List.not_lt_nil _)
    | cons d right =>
      rw [List.flatMap_cons, List.flatMap_cons]
      rcases List.cons_lt_cons_iff.1 h with hcd | ⟨rfl, hrest⟩
      · exact ((encodeChar_diverges hcd).append _ _).lt
      · exact List.append_left_lt (ih hrest)

/-- **Texts are in the order of their bytes.** -/
theorem lt_iff_utf8 {a b : String} : a < b ↔ utf8 a < utf8 b := by
  have hlt : ∀ {a b : String}, a < b → utf8 a < utf8 b := by
    intro a b h
    rw [utf8_eq_flatMap, utf8_eq_flatMap]
    exact flatMap_encodeChar_lt (String.lt_iff.1 h)
  refine ⟨hlt, fun h => ?_⟩
  rcases key_trichotomy a b with hab | rfl | hba
  · exact hab
  · exact absurd h (List.lt_irrefl _)
  · exact absurd (hlt hba) (List.lt_asymm h)

/-- **A text begins with another one exactly if its bytes do.** -/
theorem startsWith_iff_utf8 {start key : String} :
    startsWith start key = true ↔ utf8 start <+: utf8 key := by
  rw [startsWith, List.isPrefixOf_iff_prefix, utf8_eq_flatMap, utf8_eq_flatMap]
  constructor
  · rintro ⟨rest, hrest⟩
    exact ⟨_, by rw [← hrest, List.flatMap_append]⟩
  · rintro ⟨rest, hrest⟩
    refine List.isPrefix_of_utf8Encode_append_eq_utf8Encode rest.toByteArray ?_
    rw [List.utf8Encode, List.utf8Encode, ← hrest, List.toByteArray_append]

end StagedRollout
