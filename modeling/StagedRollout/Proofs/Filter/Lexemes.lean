/-
# Written tokens

A text in which tokens are written one after the other, with any white space between them, is
read back as these tokens (`tokenize_written`).  Words have to be kept apart: what follows a word
may not go on with it.  The tokens that a text is read as can always be written
(`isLexeme_of_tokenize`).
-/
import Mathlib
import StagedRollout.Filter.Printer
import StagedRollout.Proofs.Filter.Grammar

namespace StagedRollout.TargetFilter

/-! ## Tokens in a text -/

/-- A token as it is written: a value in quotes with its escapes. -/
def Token.spelling : Token → List Char
  | .openParen => ['(']
  | .closeParen => [')']
  | .and => [';']
  | .or => [',']
  | .op c => c.sign.toList
  | .word w => w.toList
  | .quoted q => quoteValue q

/-- A token that can be written: a word has word characters only, and one at least. -/
def Token.IsLexeme : Token → Prop
  | .word w => w ≠ "" ∧ ∀ c ∈ w.toList, isWordChar c = true
  | _ => True

lemma Token.IsLexeme.spelling_ne_nil {t : Token} (ht : t.IsLexeme) : t.spelling ≠ [] := by
  cases t with
  | word w => exact fun hnil => ht.1 (String.toList_eq_nil_iff.1 hnil)
  | op c => cases c <;> exact List.cons_ne_nil _ _
  | openParen | closeParen | and | or | quoted => exact List.cons_ne_nil _ _

/-- White space of any length. -/
def Blank (gap : List Char) : Prop := ∀ c ∈ gap, Text.isBlank c = true

/-- A text does not go on with a word. -/
def EndsWord (text : List Char) : Prop := ∀ c ∈ text.head?, isWordChar c = false

/-- Tokens and a text in which they are written, with white space in front of each of them and
at the end. -/
inductive Written : List Token → List Char → Prop
  | nil {gap : List Char} (hgap : Blank gap) : Written [] gap
  | cons {gap text : List Char} {t : Token} {ts : List Token} (hgap : Blank gap)
      (ht : t.IsLexeme) (hword : ∀ w, t = .word w → EndsWord text) (rest : Written ts text) :
      Written (t :: ts) (gap ++ (t.spelling ++ text))

lemma blank_nil : Blank [] := fun _ hc => absurd hc List.not_mem_nil

lemma blank_space : Blank [' '] := by
  intro c hc
  obtain rfl := List.mem_singleton.1 hc
  decide

lemma isLexeme_word {w : String} (hne : w ≠ "") (h : w.toList.all isWordChar = true) :
    (Token.word w).IsLexeme := ⟨hne, List.all_eq_true.1 h⟩

lemma not_isWordChar_of_isBlank {c : Char} (h : Text.isBlank c = true) : isWordChar c = false := by
  simp [isWordChar, h]

lemma not_isBlank_of_isWordChar {c : Char} (h : isWordChar c = true) : Text.isBlank c = false := by
  cases hc : Text.isBlank c with
  | false => rfl
  | true => rw [not_isWordChar_of_isBlank hc] at h; cases h

/-! ## One token -/

lemma quotedBody_quote (cs : List Char) : quotedBody ('"' :: cs) = some ([], 1, cs) := by
  rw [quotedBody.eq_def]
  rfl

lemma quotedBody_escape (c : Char) (cs : List Char) :
    quotedBody ('\\' :: c :: cs) =
      (quotedBody cs).map fun (value, n, rest) => (c :: value, n + 2, rest) := by
  rw [quotedBody.eq_def]
  rfl

lemma quotedBody_cons {c : Char} (hquote : c ≠ '"') (hslash : c ≠ '\\') (cs : List Char) :
    quotedBody (c :: cs) =
      (quotedBody cs).map fun (value, n, rest) => (c :: value, n + 1, rest) := by
  rw [quotedBody.eq_def]
  simp only [if_neg hquote, if_neg hslash]

/-- A value in quotes is read up to its closing quote. -/
lemma quotedBody_escaped (value rest : List Char) :
    quotedBody (value.flatMap escapeQuoted ++ '"' :: rest) =
      some (value, (value.flatMap escapeQuoted).length + 1, rest) := by
  induction value with
  | nil => exact quotedBody_quote rest
  | cons c value ih =>
    rw [List.flatMap_cons, List.append_assoc, escapeQuoted, List.length_append]
    split_ifs with hc
    · -- the backslash in front of the character is dropped
      show quotedBody ('\\' :: c :: (value.flatMap escapeQuoted ++ '"' :: rest)) = _
      rw [quotedBody_escape, ih, Option.map_some, List.length_cons, List.length_singleton]
      refine congrArg (fun n => some (c :: value, n, rest)) ?_
      omega
    · obtain ⟨hquote, hslash⟩ := not_or.1 hc
      rw [List.singleton_append, quotedBody_cons hquote hslash, ih, Option.map_some,
        List.length_singleton]
      refine congrArg (fun n => some (c :: value, n, rest)) ?_
      omega

/-- A word is read up to its end. -/
lemma lexeme_word (pos : Nat) {c : Char} {cs rest : List Char} (hc : isWordChar c = true)
    (hcs : ∀ d ∈ cs, isWordChar d = true) (hrest : EndsWord rest) :
    lexeme pos c (cs ++ rest) = .ok (.word (String.ofList (c :: cs)), cs.length + 1, rest) := by
  have hreserved : isReserved c = false := by
    simp only [isWordChar, Bool.and_eq_true, Bool.not_eq_true'] at hc
    exact hc.2
  simp only [isReserved, Bool.or_eq_false_iff, decide_eq_false_iff_not] at hreserved
  obtain ⟨⟨⟨⟨⟨⟨h₁, h₂⟩, h₃⟩, h₄⟩, h₅⟩, h₆⟩, h₇⟩ := hreserved
  have hdrop : rest.dropWhile isWordChar = rest := by
    cases rest with
    | nil => rfl
    | cons d rest => rw [List.dropWhile_cons_of_neg (by simp [hrest d (by simp)])]
  have htake : rest.takeWhile isWordChar = [] := by
    cases rest with
    | nil => rfl
    | cons d rest => rw [List.takeWhile_cons_of_neg (by simp [hrest d (by simp)])]
  simp [lexeme, h₁, h₂, h₃, h₄, h₅, h₆, h₇, List.takeWhile_append_of_pos hcs,
    List.dropWhile_append_of_pos hcs, hdrop, htake]

/-- A token that is written is read back. -/
lemma lexeme_spelling {t : Token} (ht : t.IsLexeme) (pos : Nat) {rest : List Char}
    (hword : ∀ w, t = .word w → EndsWord rest) :
    ∃ c cs, t.spelling ++ rest = c :: cs ∧ Text.isBlank c = false ∧
      lexeme pos c cs = .ok (t, t.spelling.length, rest) := by
  cases t with
  | openParen => exact ⟨'(', rest, rfl, by decide, by simp [lexeme, Token.spelling]⟩
  | closeParen => exact ⟨')', rest, rfl, by decide, by simp [lexeme, Token.spelling]⟩
  | and => exact ⟨';', rest, rfl, by decide, by simp [lexeme, Token.spelling]⟩
  | or => exact ⟨',', rest, rfl, by decide, by simp [lexeme, Token.spelling]⟩
  | op c =>
    cases c with
    | equal =>
      exact ⟨'=', '=' :: rest, rfl, by decide, by simp [lexeme, Token.spelling, Comparison.sign]⟩
    | different =>
      exact ⟨'!', '=' :: rest, rfl, by decide, by simp [lexeme, Token.spelling, Comparison.sign]⟩
  | word w =>
    obtain ⟨hne, hchars⟩ := ht
    obtain ⟨c, cs, hw⟩ : ∃ c cs, w.toList = c :: cs :=
      List.exists_cons_of_ne_nil fun h => hne (String.toList_eq_nil_iff.1 h)
    rw [hw] at hchars
    obtain ⟨hc, hcs⟩ := List.forall_mem_cons.1 hchars
    refine ⟨c, cs ++ rest, by simp [Token.spelling, hw], not_isBlank_of_isWordChar hc, ?_⟩
    rw [lexeme_word pos hc hcs (hword w rfl), ← hw, String.ofList_toList, Token.spelling, hw,
      List.length_cons]
  | quoted q =>
    refine ⟨'"', q.toList.flatMap escapeQuoted ++ '"' :: rest, by simp [Token.spelling, quoteValue],
      by decide, ?_⟩
    simp [lexeme, quotedBody_escaped, Token.spelling, quoteValue]

/-! ## Whole texts -/

/-- White space in front of a text gives no tokens. -/
lemma tokensFrom_gap {gap : List Char} (hgap : Blank gap) (text : List Char) (fuel pos : Nat)
    (hfuel : (gap ++ text).length < fuel) :
    ∃ fuel', text.length < fuel' ∧
      tokensFrom fuel pos (gap ++ text) = tokensFrom fuel' (pos + gap.length) text := by
  induction gap generalizing fuel pos with
  | nil => exact ⟨fuel, hfuel, rfl⟩
  | cons c gap ih =>
    obtain ⟨hc, hrest⟩ := List.forall_mem_cons.1 hgap
    obtain ⟨fuel, rfl⟩ := Nat.exists_eq_add_one_of_ne_zero (Nat.ne_zero_of_lt hfuel)
    rw [List.cons_append, List.length_cons] at hfuel
    obtain ⟨fuel', hfuel', heq⟩ := ih hrest fuel (pos + 1) (by omega)
    refine ⟨fuel', hfuel', ?_⟩
    rw [List.cons_append, tokensFrom, if_pos hc, heq, List.length_cons]
    congr 1
    omega

lemma tokensFrom_written {ts : List Token} {text : List Char} (h : Written ts text) :
    ∀ fuel pos, text.length < fuel → ∃ us, tokensFrom fuel pos text = .ok us ∧ bare us = ts := by
  induction h with
  | @nil gap hgap =>
    intro fuel pos hfuel
    obtain ⟨fuel', hfuel', heq⟩ := tokensFrom_gap hgap [] fuel pos (by simpa using hfuel)
    rw [List.append_nil] at heq
    obtain ⟨fuel', rfl⟩ := Nat.exists_eq_add_one_of_ne_zero (Nat.ne_zero_of_lt hfuel')
    exact ⟨[], heq, rfl⟩
  | @cons gap text t ts hgap ht hword _ ih =>
    intro fuel pos hfuel
    obtain ⟨fuel', hfuel', heq⟩ := tokensFrom_gap hgap _ fuel pos hfuel
    obtain ⟨c, cs, htext, hblank, hlexeme⟩ := lexeme_spelling ht (pos + gap.length) hword
    rw [htext] at hfuel'
    obtain ⟨fuel', rfl⟩ := Nat.exists_eq_add_one_of_ne_zero (Nat.ne_zero_of_lt hfuel')
    -- a token takes one character at least, so the fuel lasts for the rest
    have hlength : text.length ≤ cs.length := by
      have hsum := congrArg List.length htext
      rw [List.length_append, List.length_cons] at hsum
      have hone := List.length_pos_iff.2 ht.spelling_ne_nil
      omega
    rw [List.length_cons] at hfuel'
    obtain ⟨us, hus, hbare⟩ := ih fuel' (pos + gap.length + t.spelling.length) (by omega)
    refine ⟨(pos + gap.length, t) :: us, ?_, by rw [bare_cons, hbare]⟩
    rw [heq, htext, tokensFrom, if_neg (by simp [hblank]), hlexeme]
    dsimp only
    rw [hus]

/-- **Tokens that are written are read back.** -/
theorem tokenize_written {ts : List Token} {text : List Char} (h : Written ts text) :
    ∃ us, tokenize text = .ok us ∧ bare us = ts :=
  tokensFrom_written h _ _ (Nat.lt_succ_self _)

lemma isLexeme_of_lexeme {pos : Nat} {c : Char} {cs : List Char} {t : Token} {n : Nat}
    {rest : List Char} (hc : Text.isBlank c = false) (h : lexeme pos c cs = .ok (t, n, rest)) :
    t.IsLexeme := by
  unfold lexeme at h
  split_ifs at h with h₁ h₂ h₃ h₄ h₅ h₆ h₆
  · cases h; trivial
  · cases h; trivial
  · cases h; trivial
  · cases h; trivial
  · split at h
    · cases h; trivial
    · cases h
  · split at h
    · cases h; trivial
    · cases h
  · cases hbody : quotedBody cs with
    | none => rw [hbody] at h; cases h
    | some body => rw [hbody] at h; cases h; trivial
  · cases h
    have hword : isWordChar c = true := by
      rw [not_or] at h₅
      simp [isWordChar, isReserved, *]
    refine ⟨by simp, fun d hd => ?_⟩
    rw [String.toList_ofList, List.mem_cons] at hd
    rcases hd with rfl | hd
    · exact hword
    · exact List.mem_takeWhile_imp hd

lemma isLexeme_of_tokensFrom {fuel pos : Nat} {text : List Char} {us : List PlacedToken}
    (h : tokensFrom fuel pos text = .ok us) : ∀ t ∈ bare us, t.IsLexeme := by
  fun_induction tokensFrom fuel pos text generalizing us with
  | case1 | case2 => cases h; simp
  | case3 fuel pos c cs hblank ih => exact ih h
  | case4 => cases h
  | case5 => cases h
  | case6 fuel pos c cs hblank t n rest hlexeme ts hrest ih =>
    cases h
    rw [bare_cons]
    exact List.forall_mem_cons.2 ⟨isLexeme_of_lexeme (by simpa using hblank) hlexeme, ih hrest⟩

/-- The tokens that a text is read as can be written. -/
theorem isLexeme_of_tokenize {text : List Char} {us : List PlacedToken}
    (h : tokenize text = .ok us) : ∀ t ∈ bare us, t.IsLexeme := isLexeme_of_tokensFrom h

/-- The text of a derived filter is parsed as that filter. -/
lemma parse_of_written [Wildcard.Limit] {e : Expr} {ts : List Token} {text : List Char}
    (hwritten : Written ts text) (hderives : Derives e ts) (husable : Usable ts) :
    parse (String.ofList text) = .ok e := by
  obtain ⟨us, hus, rfl⟩ := tokenize_written hwritten
  rw [parse, parseChars, String.toList_ofList, hus, Except.ok_bind]
  exact ofTokens_of_derives husable hderives

end StagedRollout.TargetFilter
