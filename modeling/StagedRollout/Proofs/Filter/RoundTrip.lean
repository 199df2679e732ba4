/-
# Writing and reading back

The written form of a filter is the sequence of its tokens (`Expr.tokens`), and the grammar derives
the filter from them (`Expr.Regular.spelled`).  No two words stand next to each other in it, so
white space may be left out or put in between any two tokens.  Main statement: every regular filter
is read back from its written form, however it is spaced (`parse_source`).
-/
import Mathlib
import StagedRollout.Proofs.Filter.Lexemes

namespace StagedRollout.TargetFilter

/-! ## The tokens of a filter -/

/-- A field whose name can be written: an attribute's key has word characters only, and one at
least. -/
def Field.IsWritable : Field → Prop
  | .attribute key => key ≠ "" ∧ ∀ c ∈ key.toList, isWordChar c = true
  | _ => True

lemma Field.isWritable_ofKey {key : String} (hne : key ≠ "")
    (h : key.toList.all isWordChar = true) : (Field.attribute key).IsWritable :=
  ⟨hne, List.all_eq_true.1 h⟩

/-- A filter that has a written form: what is joined has two parts at least, fields can be written,
and values can be used in a comparison. -/
inductive Expr.Regular [Wildcard.Limit] : Expr → Prop
  | all {parts : List Expr} (htwo : 2 ≤ parts.length) (h : ∀ e ∈ parts, e.Regular) :
      Regular (.all parts)
  | any {parts : List Expr} (htwo : 2 ≤ parts.length) (h : ∀ e ∈ parts, e.Regular) :
      Regular (.any parts)
  | compare {field : Field} {value : String} (hfield : field.IsWritable)
      (hvalue : Wildcard.isUsable value.toList = true) (op : Comparison) :
      Regular (.compare field op value)

/-- The tokens of a comparison. -/
def comparisonTokens (field : Field) (op : Comparison) (value : String) : List Token :=
  [.word (String.ofList field.source), .op op, .quoted value]

mutual

/-- The tokens of a filter. -/
def Expr.tokens : Expr → List Token
  | .all parts => Expr.joinedTokens .and parts
  | .any parts => Expr.joinedTokens .or parts
  | .compare field op value => comparisonTokens field op value

/-- The tokens of a filter that is a part of another. -/
def Expr.partTokens : Expr → List Token
  | .compare field op value => comparisonTokens field op value
  | .all parts => .openParen :: (Expr.joinedTokens .and parts ++ [.closeParen])
  | .any parts => .openParen :: (Expr.joinedTokens .or parts ++ [.closeParen])

/-- The tokens of parts with a separator between them. -/
def Expr.joinedTokens (sep : Token) : List Expr → List Token
  | [] => []
  | [e] => e.partTokens
  | e :: next :: rest => e.partTokens ++ sep :: Expr.joinedTokens sep (next :: rest)

end

/-- Tokens as they are written without white space. -/
def spell (ts : List Token) : List Char := (ts.map Token.spelling).flatten

@[simp] lemma spell_cons (t : Token) (ts : List Token) :
    spell (t :: ts) = t.spelling ++ spell ts := rfl

@[simp] lemma spell_append (ts us : List Token) : spell (ts ++ us) = spell ts ++ spell us := by
  simp [spell]

lemma spell_comparisonTokens (field : Field) (op : Comparison) (value : String) :
    spell (comparisonTokens field op value) =
      field.source ++ op.sign.toList ++ quoteValue value := by
  simp [spell, comparisonTokens, Token.spelling]

mutual

/-- The written form of a filter is its tokens. -/
theorem Expr.spell_tokens : ∀ e : Expr, spell e.tokens = e.source
  | .all parts => Expr.spell_joinedTokens rfl parts
  | .any parts => Expr.spell_joinedTokens rfl parts
  | .compare field op value => spell_comparisonTokens field op value

theorem Expr.spell_partTokens : ∀ e : Expr, spell e.partTokens = e.partSource
  | .compare field op value => spell_comparisonTokens field op value
  | .all parts => by
    rw [Expr.partTokens, Expr.partSource, spell_cons, spell_append,
      Expr.spell_joinedTokens (show Token.and.spelling = [';'] from rfl) parts]
    rfl
  | .any parts => by
    rw [Expr.partTokens, Expr.partSource, spell_cons, spell_append,
      Expr.spell_joinedTokens (show Token.or.spelling = [','] from rfl) parts]
    rfl

theorem Expr.spell_joinedTokens {sep : Token} {c : Char} (hsep : sep.spelling = [c]) :
    ∀ parts : List Expr, spell (Expr.joinedTokens sep parts) = Expr.sources c parts
  | [] => rfl
  | [e] => Expr.spell_partTokens e
  | e :: next :: rest => by
    rw [Expr.joinedTokens, Expr.sources, spell_append, spell_cons, hsep, Expr.spell_partTokens e,
      Expr.spell_joinedTokens hsep (next :: rest)]
    rfl

end

/-! ## What the tokens derive -/

/-- What may stand next to each other: not two words, and behind a sign only values that can be
used. -/
structure Beside [Wildcard.Limit] (t u : Token) : Prop where
  apart : ∀ v w, t = .word v → u ≠ .word w
  usable : ∀ c value, t = .op c → IsValue u value → Wildcard.isUsable value.toList = true

/-- Parentheses and separators. -/
def Token.IsMark (t : Token) : Prop := t = .openParen ∨ t = .closeParen ∨ t = .and ∨ t = .or

lemma Beside.of_left [Wildcard.Limit] {t : Token} (ht : t.IsMark) (u : Token) : Beside t u := by
  constructor <;> rcases ht with rfl | rfl | rfl | rfl <;> simp

lemma Beside.of_right [Wildcard.Limit] (t : Token) {u : Token} (hu : u.IsMark) : Beside t u := by
  constructor
  · rcases hu with rfl | rfl | rfl | rfl <;> simp
  · rintro c value - hvalue
    rcases hu with rfl | rfl | rfl | rfl <;> cases hvalue

/-- Tokens that a phrase has, that can be written, and that may stand next to each other. -/
structure Spelled [Wildcard.Limit] (phrase : Expr → List Token → Prop) (e : Expr)
    (ts : List Token) : Prop where
  derived : phrase e ts
  lexemes : ∀ t ∈ ts, t.IsLexeme
  beside : ts.IsChain Beside

lemma Usable.of_isChain [Wildcard.Limit] {ts : List Token} (h : ts.IsChain Beside) : Usable ts := by
  intro c t value hpair hvalue
  have hchain : [Token.op c, t].IsChain Beside := List.IsChain.infix h hpair
  exact (List.isChain_cons_cons.1 hchain).1.usable c value rfl hvalue

/-- Two sequences with a mark between them. -/
lemma isChain_append_mark [Wildcard.Limit] {ts us : List Token} {mark : Token} (hmark : mark.IsMark)
    (hts : ts.IsChain Beside) (hus : us.IsChain Beside) : (ts ++ mark :: us).IsChain Beside := by
  refine List.isChain_append.2 ⟨hts, ?_, ?_⟩
  · cases us with
    | nil => exact .singleton mark
    | cons u us => exact .cons_cons (.of_left hmark u) hus
  · intro t _ u hu
    obtain rfl : mark = u := by simpa using hu
    exact .of_right t hmark

lemma source_ofKey (key : String) :
    String.ofList (Field.attribute key).source = "attribute." ++ key := by
  have hsource : (Field.attribute key).source = "attribute.".toList ++ key.toList := rfl
  rw [hsource, String.ofList_append, String.ofList_toList, String.ofList_toList]

lemma isField_source {field : Field} (h : field.IsWritable) :
    IsField (String.ofList field.source) field := by
  match field, h with
  | .id, _ => exact .id
  | .name, _ => exact .name
  | .tag, _ => exact .tag
  | .attribute key, h =>
    rw [source_ofKey]
    exact .ofKey h.1

/-- The word of an attribute with a key. -/
lemma isLexeme_ofKey {key : String} (h : ∀ c ∈ key.toList, isWordChar c = true) :
    (Token.word ("attribute." ++ key)).IsLexeme := by
  have hfirst : "attribute.".toList.all isWordChar = true := by decide
  refine ⟨fun hnil => ?_, fun c hc => ?_⟩
  · have hempty := congrArg String.toList hnil
    rw [String.toList_append] at hempty
    exact absurd (List.append_eq_nil_iff.1 hempty).1 (by decide)
  · rw [String.toList_append] at hc
    exact (List.mem_append.1 hc).elim (List.all_eq_true.1 hfirst c) (h c)

lemma isLexeme_source {field : Field} (h : field.IsWritable) :
    (Token.word (String.ofList field.source)).IsLexeme := by
  match field, h with
  | .id, _ | .name, _ | .tag, _ => exact isLexeme_word (by decide) (by decide)
  | .attribute key, h =>
    rw [source_ofKey]
    exact isLexeme_ofKey h.2

/-- A comparison with a value in quotes or without. -/
lemma Spelled.comparison [Wildcard.Limit] {field : Field} {t : Token} {value : String}
    (hfield : field.IsWritable) (op : Comparison) (ht : t.IsLexeme) (hvalue : IsValue t value)
    (husable : Wildcard.isUsable value.toList = true) :
    Spelled Part (.compare field op value)
      [.word (String.ofList field.source), .op op, t] where
  derived := .comparison (isField_source hfield) hvalue
  lexemes := by
    intro u hu
    simp only [List.mem_cons, List.not_mem_nil, or_false] at hu
    rcases hu with rfl | rfl | rfl
    · exact isLexeme_source hfield
    · trivial
    · exact ht
  beside := by
    refine .cons_cons ⟨by simp, by simp⟩ (.cons_cons ⟨by simp, ?_⟩ (.singleton _))
    rintro c value' - hvalue'
    obtain rfl : value = value' := by cases hvalue <;> cases hvalue' <;> rfl
    exact husable

lemma Spelled.parens [Wildcard.Limit] {e : Expr} {ts : List Token} (h : Spelled Derives e ts) :
    Spelled Part e (.openParen :: (ts ++ [.closeParen])) where
  derived := .parens h.derived
  lexemes := by
    intro t ht
    simp only [List.mem_cons, List.mem_append, List.not_mem_nil, or_false] at ht
    rcases ht with rfl | ht | rfl
    · trivial
    · exact h.lexemes t ht
    · trivial
  beside := by
    have hclosed : (ts ++ [Token.closeParen]).IsChain Beside :=
      isChain_append_mark (.inr (.inl rfl)) h.beside .nil
    have hopened : ([] ++ Token.openParen :: (ts ++ [Token.closeParen])).IsChain Beside :=
      isChain_append_mark (.inl rfl) .nil hclosed
    exact hopened

/-- Parts with a separator between them. -/
lemma Spelled.joined [Wildcard.Limit] {phrase : Expr → List Token → Prop} {sep : Token}
    (hsep : sep = .and ∨ sep = .or) {parts : List Expr} (hne : parts ≠ [])
    (h : ∀ e ∈ parts, Spelled phrase e e.partTokens) :
    Phrases sep phrase parts (Expr.joinedTokens sep parts) ∧
      (∀ t ∈ Expr.joinedTokens sep parts, t.IsLexeme) ∧
      (Expr.joinedTokens sep parts).IsChain Beside := by
  induction parts with
  | nil => exact absurd rfl hne
  | cons e parts ih =>
    obtain ⟨he, hparts⟩ := List.forall_mem_cons.1 h
    cases parts with
    | nil => exact ⟨.last he.derived, he.lexemes, he.beside⟩
    | cons next rest =>
      obtain ⟨hphrases, hlexemes, hbeside⟩ := ih (by simp) hparts
      refine ⟨.cons he.derived hphrases, fun t ht => ?_,
        isChain_append_mark (.inr (.inr hsep)) he.beside hbeside⟩
      rw [Expr.joinedTokens, List.mem_append, List.mem_cons] at ht
      rcases ht with ht | rfl | ht
      · exact he.lexemes t ht
      · rcases hsep with rfl | rfl <;> trivial
      · exact hlexemes t ht

lemma Spelled.single [Wildcard.Limit] {phrase : Expr → List Token → Prop} {sep : Token}
    {wrap : List Expr → Expr} {e : Expr} {ts : List Token} (h : Spelled phrase e ts) :
    Spelled (Level sep wrap phrase) e ts := ⟨.single h.derived, h.lexemes, h.beside⟩

/-- Two parts or more on one level. -/
lemma Spelled.several [Wildcard.Limit] {phrase : Expr → List Token → Prop} {sep : Token}
    (hsep : sep = .and ∨ sep = .or) (wrap : List Expr → Expr) {parts : List Expr}
    (htwo : 2 ≤ parts.length) (h : ∀ e ∈ parts, Spelled phrase e e.partTokens) :
    Spelled (Level sep wrap phrase) (wrap parts) (Expr.joinedTokens sep parts) := by
  match parts, htwo with
  | e :: e' :: rest, _ =>
    obtain ⟨hphrases, hlexemes, hbeside⟩ := Spelled.joined hsep (by simp) h
    exact ⟨.several hphrases, hlexemes, hbeside⟩

/-- The tokens of a regular filter derive it, alone and as a part of another. -/
lemma Expr.Regular.spelled [Wildcard.Limit] {e : Expr} (h : e.Regular) :
    Spelled Derives e e.tokens ∧ Spelled Part e e.partTokens := by
  induction h with
  | all htwo _ ih =>
    have hall : Spelled Conjunction _ _ := .several (.inl rfl) .all htwo fun e he => (ih e he).2
    exact ⟨hall.single, hall.single.parens⟩
  | any htwo _ ih =>
    have hany : Spelled Derives _ _ :=
      .several (.inr rfl) .any htwo fun e he => (ih e he).2.single
    exact ⟨hany, hany.parens⟩
  | compare hfield hvalue op =>
    have hpart := Spelled.comparison hfield op (t := .quoted _) trivial (.quoted _) hvalue
    exact ⟨hpart.single.single, hpart⟩

/-! ## White space between the tokens -/

/-- Pieces and a text in which they stand one after the other, with white space of any length in
front of each of them and at the end. -/
inductive Spaced : List (List Char) → List Char → Prop
  | nil {gap : List Char} (hgap : Blank gap) : Spaced [] gap
  | cons {gap piece text : List Char} {pieces : List (List Char)} (hgap : Blank gap)
      (rest : Spaced pieces text) : Spaced (piece :: pieces) (gap ++ (piece ++ text))

/-- The same white space in front of every piece, which may be none. -/
lemma Spaced.evenly {gap : List Char} (hgap : Blank gap) (pieces : List (List Char)) :
    Spaced pieces (pieces.flatMap (gap ++ ·)) := by
  induction pieces with
  | nil => exact .nil blank_nil
  | cons piece pieces ih =>
    rw [List.flatMap_cons, List.append_assoc]
    exact .cons hgap ih

lemma endsWord_gap {gap text : List Char} (hgap : Blank gap) (htext : EndsWord text) :
    EndsWord (gap ++ text) := by
  cases gap with
  | nil => exact htext
  | cons c gap =>
    intro d hd
    obtain rfl : c = d := by simpa using hd
    exact not_isWordChar_of_isBlank (hgap c List.mem_cons_self)

lemma endsWord_spelling {t : Token} (ht : ∀ w, t ≠ .word w) (text : List Char) :
    EndsWord (t.spelling ++ text) := by
  have hfirst : ∀ c cs, t.spelling ++ text = c :: cs → isWordChar c = false →
      EndsWord (t.spelling ++ text) := by
    intro c cs heq hc d hd
    rw [heq] at hd
    obtain rfl : c = d := by simpa using hd
    exact hc
  cases t with
  | word w => exact absurd rfl (ht w)
  | op c => cases c <;> exact hfirst _ _ rfl (by decide)
  | _ => exact hfirst _ _ rfl (by decide)

/-- Tokens that may stand next to each other are written with or without white space. -/
lemma Spaced.written [Wildcard.Limit] {ts : List Token} {text : List Char}
    (h : Spaced (ts.map Token.spelling) text) (hlexemes : ∀ t ∈ ts, t.IsLexeme)
    (hbeside : ts.IsChain Beside) : Written ts text := by
  induction ts generalizing text with
  | nil =>
    cases h with
    | nil hgap => exact .nil hgap
  | cons t ts ih =>
    cases h with
    | cons hgap hrest =>
      obtain ⟨ht, hts⟩ := List.forall_mem_cons.1 hlexemes
      refine .cons hgap ht ?_ (ih hrest hts hbeside.tail)
      rintro w rfl
      cases ts with
      | nil =>
        cases hrest with
        | nil hgap =>
          have hend : EndsWord [] := by simp [EndsWord]
          simpa using endsWord_gap hgap hend
      | cons u ts =>
        cases hrest with
        | cons hgap _ =>
          have hapart := (List.isChain_cons_cons.1 hbeside).1.apart
          exact endsWord_gap hgap (endsWord_spelling (fun v => hapart w v rfl) _)

/-- **Every regular filter is read back from its written form**, whatever white space is put
between the tokens. -/
theorem parse_source [Wildcard.Limit] {e : Expr} (he : e.Regular) :
    (e.tokens.map Token.spelling).flatten = e.source ∧
      parse (String.ofList e.source) = .ok e ∧
      ∀ text, Spaced (e.tokens.map Token.spelling) text → parse (String.ofList text) = .ok e := by
  have hspelled := he.spelled.1
  have hread : ∀ text, Spaced (e.tokens.map Token.spelling) text →
      parse (String.ofList text) = .ok e := fun text htext =>
    parse_of_written (htext.written hspelled.lexemes hspelled.beside) hspelled.derived
      (.of_isChain hspelled.beside)
  have hsource : (e.tokens.map Token.spelling).flatten = e.source := e.spell_tokens
  refine ⟨hsource, hread _ ?_, hread⟩
  have htight := Spaced.evenly blank_nil (e.tokens.map Token.spelling)
  rwa [← hsource, List.flatten_eq_flatMap]

/-- A filter with escapes, a group in parentheses and an attribute. -/
def sites : Expr :=
  .any [.all [.compare .tag .equal "a\"b\\c",
    .compare (.attribute "site") .different "berlin; hall 3"], .compare .id .equal "gw-*"]

open scoped Wildcard in
theorem parse_source_sites :
    sites.Regular ∧
      parse "(tag==\"a\\\"b\\\\c\";attribute.site!=\"berlin; hall 3\"),id==\"gw-*\"" = .ok sites ∧
      parse " ( tag == \"a\\\"b\\\\c\" ; attribute.site != \"berlin; hall 3\" ) , id == \"gw-*\"" =
        .ok sites := by
  have hgroup : Expr.Regular (.all [.compare .tag .equal "a\"b\\c",
      .compare (.attribute "site") .different "berlin; hall 3"]) := by
    refine .all (by decide) fun e he => ?_
    simp only [List.mem_cons, List.not_mem_nil, or_false] at he
    rcases he with rfl | rfl
    · refine .compare ?_ (by decide) _
      trivial
    · exact .compare (Field.isWritable_ofKey (by decide) (by decide)) (by decide) _
  have hregular : sites.Regular := by
    refine .any (by decide) fun e he => ?_
    simp only [List.mem_cons, List.not_mem_nil, or_false] at he
    rcases he with rfl | rfl
    · exact hgroup
    · refine .compare ?_ (by decide +kernel) _
      trivial
  obtain ⟨-, htight, hspaced⟩ := parse_source hregular
  exact ⟨hregular, htight, hspaced _ (.evenly blank_space _)⟩

end StagedRollout.TargetFilter
