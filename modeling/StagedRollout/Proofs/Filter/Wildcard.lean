/-
# What wildcards cover

The rows that are carried along when a text is matched say, for every start of the text, whether
the pieces read so far cover it (`Marks`).  Reading one more piece turns a row that is right into
one that is right for the longer expression: any characters let a covered start grow by any
characters but line breaks, a character that stands for itself lets it grow by itself.  The last
entry of the last row therefore says whether the expression covers the whole text.

What the expression of a value covers is also said without it: it is the value with each star
replaced by some text without a line break (`fill`).  Main statement: a value matches exactly the
texts of that form (`valueMatches_iff`).
-/
import Mathlib
import StagedRollout.Filter.Basic

namespace StagedRollout

namespace Wildcard

variable {P Q : List Char → Prop} {text : List Char} {row : List Bool}

/-! ## Expressions of values -/

lemma splitAll_ne_nil (sep : Char) (l : List Char) : Text.splitAll sep l ≠ [] := by
  induction l with
  | nil => exact List.cons_ne_nil _ _
  | cons c l ih =>
    rw [Text.splitAll]
    split
    · exact List.cons_ne_nil _ _
    · split <;> exact List.cons_ne_nil _ _

/-- Behind a star the value goes on with another piece. -/
lemma compile_star (pattern : List Char) :
    compile ('*' :: pattern) = .exactly [] :: .anything :: compile pattern := by
  unfold compile
  rw [Text.splitAll]
  cases hsplit : Text.splitAll '*' pattern with
  | nil => exact absurd hsplit (splitAll_ne_nil _ _)
  | cons part parts => cases parts <;> rfl

/-- Any other character belongs to the first piece. -/
lemma compile_cons {p : Char} (hp : p ≠ '*') (pattern : List Char) :
    ∃ part pieces, compile pattern = .exactly part :: pieces ∧
      compile (p :: pattern) = .exactly (p :: part) :: pieces := by
  unfold compile
  rw [Text.splitAll]
  cases hsplit : Text.splitAll '*' pattern with
  | nil => exact absurd hsplit (splitAll_ne_nil _ _)
  | cons part parts =>
    dsimp only
    rw [if_neg hp]
    cases parts <;> exact ⟨part, _, rfl, rfl⟩

lemma covers_nil {text : List Char} : Covers [] text ↔ text = [] := by
  constructor
  · intro h
    cases h
    rfl
  · rintro rfl
    exact .nil

lemma covers_exactly {part text : List Char} {pieces : List Piece} :
    Covers (.exactly part :: pieces) text ↔ ∃ rest, text = part ++ rest ∧ Covers pieces rest := by
  constructor
  · intro h
    cases h with
    | exactly h => exact ⟨_, rfl, h⟩
  · rintro ⟨rest, rfl, h⟩
    exact .exactly h

lemma covers_anything {text : List Char} {pieces : List Piece} :
    Covers (.anything :: pieces) text ↔
      ∃ filling rest, text = filling ++ rest ∧ '\n' ∉ filling ∧ Covers pieces rest := by
  constructor
  · intro h
    cases h with
    | anything hfilling h => exact ⟨_, _, rfl, hfilling, h⟩
  · rintro ⟨filling, rest, rfl, hfilling, h⟩
    exact .anything hfilling h

lemma covers_compile_nil {text : List Char} : Covers (compile []) text ↔ text = [] := by
  rw [show compile [] = [.exactly []] from rfl, covers_exactly]
  simp [covers_nil]

/-- What a value covers that begins with a character that is no star. -/
lemma covers_compile_cons {p : Char} (hp : p ≠ '*') {pattern text : List Char} :
    Covers (compile (p :: pattern)) text ↔
      ∃ rest, text = p :: rest ∧ Covers (compile pattern) rest := by
  obtain ⟨part, pieces, hpattern, hcons⟩ := compile_cons hp pattern
  simp only [hpattern, hcons, covers_exactly]
  constructor
  · rintro ⟨rest, rfl, h⟩
    exact ⟨part ++ rest, rfl, rest, rfl, h⟩
  · rintro ⟨_, rfl, rest, rfl, h⟩
    exact ⟨rest, rfl, h⟩

/-- What a value covers that begins with a star. -/
lemma covers_compile_star {pattern text : List Char} :
    Covers (compile ('*' :: pattern)) text ↔
      ∃ filling rest, text = filling ++ rest ∧ '\n' ∉ filling ∧ Covers (compile pattern) rest := by
  rw [compile_star, covers_exactly]
  simp only [List.nil_append, exists_eq_left', covers_anything]

/-! ## Rows -/

/-- The entries of a row say for which starts of a text a property holds, the empty one first. -/
inductive Marks : (List Char → Prop) → List Char → List Bool → Prop
  | nil {P : List Char → Prop} {b : Bool} (h : b = true ↔ P []) : Marks P [] [b]
  | cons {P : List Char → Prop} {c : Char} {text : List Char} {b : Bool} {row : List Bool}
      (h : b = true ↔ P []) (rest : Marks (fun t => P (c :: t)) text row) :
      Marks P (c :: text) (b :: row)

namespace Marks

lemma congr (h : Marks P text row) (hPQ : ∀ t, P t ↔ Q t) : Marks Q text row := by
  induction h generalizing Q with
  | nil h => exact .nil (h.trans (hPQ []))
  | cons h _ ih => exact .cons (h.trans (hPQ [])) (ih fun t => hPQ _)

/-- The last entry is about the whole text. -/
lemma getLast (h : Marks P text row) : row.getLast?.getD false = true ↔ P text := by
  induction h with
  | nil h => simpa using h
  | cons h hrest ih =>
    cases hrest with
    | nil => simpa using ih
    | cons => simpa using ih

/-- In front of every expression only the empty start is covered. -/
lemma start (text : List Char) : Marks (· = []) text (start text) := by
  have none : ∀ text : List Char, Marks (fun _ => False) text
      (false :: List.replicate text.length false) := by
    intro text
    induction text with
    | nil => exact .nil (by simp)
    | cons c text ih => exact .cons (by simp) ih
  cases text with
  | nil => exact .nil (by simp)
  | cons c text => exact .cons (by simp) ((none text).congr (by simp))

/-- The row behind a character that stands for itself. -/
lemma literal (p : Char) (h : Marks P text row) (carry : Bool) :
    Marks (fun t => t = [] ∧ carry = true ∨ ∃ t', t = t' ++ [p] ∧ P t') text
      (literal p carry text row) := by
  induction h generalizing carry with
  | nil h => exact .nil (by simp)
  | @cons P c text b row h _ ih =>
    refine .cons (by simp) ((ih (b && c == p)).congr fun t => ?_)
    constructor
    · rintro (⟨rfl, hb⟩ | ⟨t', rfl, ht'⟩)
      · rw [Bool.and_eq_true, beq_iff_eq] at hb
        exact .inr ⟨[], by simp [hb.2], h.1 hb.1⟩
      · exact .inr ⟨c :: t', rfl, ht'⟩
    · rintro (⟨hnil, -⟩ | ⟨t', ht, ht'⟩)
      · exact absurd hnil (List.cons_ne_nil c t)
      · cases t' with
        | nil =>
          obtain ⟨rfl, rfl⟩ := List.cons.inj ht
          exact .inl ⟨rfl, by simp [h.2 ht']⟩
        | cons d t' =>
          obtain ⟨rfl, rfl⟩ := List.cons.inj ht
          exact .inr ⟨t', rfl, ht'⟩

/-- The row behind any characters. -/
lemma star (h : Marks P text row) (carry : Bool) :
    Marks (fun t => carry = true ∧ '\n' ∉ t ∨
        ∃ t' filling, t = t' ++ filling ∧ '\n' ∉ filling ∧ P t')
      text (star carry text row) := by
  induction h generalizing carry with
  | nil h => exact .nil (by simp [h, or_comm])
  | @cons P c text b row h _ ih =>
    refine .cons (by simp [h, or_comm]) ((ih _).congr fun t => ?_)
    simp only [Bool.and_eq_true, Bool.or_eq_true, bne_iff_ne, List.mem_cons, not_or]
    constructor
    · rintro (⟨⟨hb | hcarry, hc⟩, ht⟩ | ⟨t', filling, rfl, hfilling, ht'⟩)
      · exact .inr ⟨[], c :: t, rfl, by simp [Ne.symm hc, ht], h.1 hb⟩
      · exact .inl ⟨hcarry, Ne.symm hc, ht⟩
      · exact .inr ⟨c :: t', filling, rfl, hfilling, ht'⟩
    · rintro (⟨hcarry, hc, ht⟩ | ⟨t', filling, ht, hfilling, ht'⟩)
      · exact .inl ⟨⟨.inr hcarry, Ne.symm hc⟩, ht⟩
      · cases t' with
        | nil =>
          obtain rfl : c :: t = filling := ht
          rw [List.mem_cons, not_or] at hfilling
          exact .inl ⟨⟨.inl (h.2 ht'), Ne.symm hfilling.1⟩, hfilling.2⟩
        | cons d t' =>
          obtain ⟨rfl, rfl⟩ := List.cons.inj ht
          exact .inr ⟨t', filling, rfl, hfilling, ht'⟩

/-- The row behind characters that stand for themselves. -/
lemma exactly (part : List Char) (h : Marks P text row) :
    Marks (fun t => ∃ t', t = t' ++ part ∧ P t') text (Piece.row text row (.exactly part)) := by
  induction part generalizing P row with
  | nil => exact h.congr fun t => by simp
  | cons p part ih =>
    refine (ih (h.literal p false)).congr fun t => ?_
    simp only [Bool.false_eq_true, and_false, false_or]
    constructor
    · rintro ⟨_, rfl, t', rfl, ht'⟩
      exact ⟨t', List.append_assoc _ _ _, ht'⟩
    · rintro ⟨t', rfl, ht'⟩
      exact ⟨t' ++ [p], by simp, t', rfl, ht'⟩

/-- The row behind an expression: a start that was covered, and what the expression covers behind
it. -/
lemma pieces (pieces : List Piece) (h : Marks P text row) :
    Marks (fun t => ∃ t' rest, t = t' ++ rest ∧ P t' ∧ Covers pieces rest) text
      (pieces.foldl (Piece.row text) row) := by
  induction pieces generalizing P row with
  | nil => exact h.congr fun t => by simp [covers_nil]
  | cons piece pieces ih =>
    rw [List.foldl_cons]
    cases piece with
    | exactly part =>
      refine (ih (h.exactly part)).congr fun t => ?_
      simp only [covers_exactly]
      constructor
      · rintro ⟨_, rest, rfl, ⟨t', rfl, ht'⟩, hrest⟩
        exact ⟨t', part ++ rest, List.append_assoc _ _ _, ht', rest, rfl, hrest⟩
      · rintro ⟨t', _, rfl, ht', rest, rfl, hrest⟩
        exact ⟨t' ++ part, rest, (List.append_assoc _ _ _).symm, ⟨t', rfl, ht'⟩, hrest⟩
    | anything =>
      refine (ih (h.star false)).congr fun t => ?_
      simp only [Bool.false_eq_true, false_and, false_or, covers_anything]
      constructor
      · rintro ⟨_, rest, rfl, ⟨t', filling, rfl, hfilling, ht'⟩, hrest⟩
        exact ⟨t', filling ++ rest, List.append_assoc _ _ _, ht',
          filling, rest, rfl, hfilling, hrest⟩
      · rintro ⟨t', _, rfl, ht', filling, rest, rfl, hfilling, hrest⟩
        exact ⟨t' ++ filling, rest, (List.append_assoc _ _ _).symm,
          ⟨t', filling, rfl, hfilling, ht'⟩, hrest⟩

end Marks

/-- **A value with stars matches what its expression covers.** -/
theorem isMatch_iff_covers (pattern text : List Char) :
    isMatch pattern text = true ↔ Covers (compile pattern) text := by
  rw [isMatch, ((Marks.start text).pieces (compile pattern)).getLast]
  constructor
  · rintro ⟨_, rest, rfl, rfl, hrest⟩
    exact hrest
  · intro h
    exact ⟨[], text, rfl, rfl, h⟩

/-! ## Stars that are replaced -/

/-- A value with its stars replaced by texts, the first star by the first of them. -/
def fill : List Char → List (List Char) → List Char
  | [], _ => []
  | p :: pattern, fillings =>
    if p = '*' then fillings.headD [] ++ fill pattern fillings.tail
    else p :: fill pattern fillings

lemma fill_star (pattern filling : List Char) (fillings : List (List Char)) :
    fill ('*' :: pattern) (filling :: fillings) = filling ++ fill pattern fillings := rfl

lemma fill_cons {p : Char} (hp : p ≠ '*') (pattern : List Char) (fillings : List (List Char)) :
    fill (p :: pattern) fillings = p :: fill pattern fillings := if_neg hp

/-- Without stars there is nothing to replace. -/
lemma fill_of_notMem {pattern : List Char} (h : '*' ∉ pattern) (fillings : List (List Char)) :
    fill pattern fillings = pattern := by
  induction pattern with
  | nil => rfl
  | cons p pattern ih =>
    rw [List.mem_cons, not_or] at h
    rw [fill_cons (Ne.symm h.1), ih h.2]

/-- A value covers what it is with its stars replaced by texts without line breaks. -/
lemma covers_iff_fill {pattern text : List Char} :
    Covers (compile pattern) text ↔
      ∃ fillings : List (List Char), fillings.length = pattern.count '*' ∧
        (∀ filling ∈ fillings, '\n' ∉ filling) ∧ text = fill pattern fillings := by
  induction pattern generalizing text with
  | nil => simp [covers_compile_nil, fill]
  | cons p pattern ih =>
    by_cases hp : p = '*'
    · subst hp
      rw [covers_compile_star, List.count_cons_self]
      constructor
      · rintro ⟨filling, rest, rfl, hfilling, hrest⟩
        obtain ⟨fillings, hlength, hlines, rfl⟩ := ih.1 hrest
        exact ⟨filling :: fillings, congrArg (· + 1) hlength,
          List.forall_mem_cons.2 ⟨hfilling, hlines⟩, (fill_star _ _ _).symm⟩
      · rintro ⟨fillings, hlength, hlines, rfl⟩
        obtain ⟨filling, rest, rfl⟩ := List.exists_cons_of_length_eq_add_one hlength
        obtain ⟨hfilling, hrest⟩ := List.forall_mem_cons.1 hlines
        exact ⟨filling, fill pattern rest, fill_star _ _ _, hfilling,
          ih.2 ⟨rest, Nat.succ.inj hlength, hrest, rfl⟩⟩
    · rw [covers_compile_cons hp, List.count_cons_of_ne hp]
      constructor
      · rintro ⟨rest, rfl, hrest⟩
        obtain ⟨fillings, hlength, hlines, rfl⟩ := ih.1 hrest
        exact ⟨fillings, hlength, hlines, (fill_cons hp _ _).symm⟩
      · rintro ⟨fillings, hlength, hlines, rfl⟩
        exact ⟨fill pattern fillings, fill_cons hp _ _, ih.2 ⟨fillings, hlength, hlines, rfl⟩⟩

end Wildcard

namespace TargetFilter

open Wildcard

/-- **A value matches exactly the texts that it becomes when each of its stars is replaced by some
text without a line break.** -/
theorem valueMatches_iff (value text : String) :
    valueMatches value text = true ↔
      ∃ fillings : List (List Char), fillings.length = value.toList.count '*' ∧
        (∀ filling ∈ fillings, '\n' ∉ filling) ∧ text.toList = fill value.toList fillings := by
  rw [← covers_iff_fill, valueMatches]
  split_ifs with hstar
  · exact isMatch_iff_covers _ _
  · have hnone : '*' ∉ value.toList := by simpa using hstar
    rw [beq_iff_eq, covers_iff_fill]
    constructor
    · rintro rfl
      exact ⟨[], (List.count_eq_zero.2 hnone).symm, by simp, (fill_of_notMem hnone _).symm⟩
    · rintro ⟨fillings, -, -, htext⟩
      rw [fill_of_notMem hnone] at htext
      exact (String.toList_injective htext).symm

end TargetFilter

end StagedRollout
