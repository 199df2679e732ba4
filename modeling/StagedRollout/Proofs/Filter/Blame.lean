/-
# The first token that cannot stay

Which tokens may come next depends on little: whether a field, a sign, a value or the end of a part
is expected, and how many parentheses are open (`Place`).  The parser refuses a sequence of tokens
exactly where these places come to an end (`ofTokens_verdict`): at the first token that no place
takes, or behind the last token if something is missing.  From every place there is a way to the
end of a filter (`Place.exists_completion`), so everything in front of that token is the beginning
of a filter, and with the token it is not.

Main statement: what is reported for a text is the first token with which it stops being the
beginning of a filter (`parse_blames`).
-/
import Mathlib
import StagedRollout.Proofs.Filter.Lexemes

namespace StagedRollout.TargetFilter

/-! ## Places -/

/-- What is expected next. -/
inductive Spot where
  /-- A field, or an opening parenthesis. -/
  | field
  | sign
  | value
  /-- A separator, a closing parenthesis or the end. -/
  | behind
deriving DecidableEq

/-- How far a sequence of tokens has come: what is expected next, and how many parentheses are
open. -/
structure Place where
  spot : Spot
  depth : Nat
deriving DecidableEq

section

variable [Wildcard.Limit]

namespace Place

/-- In front of all tokens. -/
def start : Place := ⟨.field, 0⟩

/-- Behind a whole filter. -/
def finish : Place := ⟨.behind, 0⟩

/-- The place behind a token, if the token may come here. -/
def step : Place → Token → Option Place
  | ⟨.field, n⟩, .openParen => some ⟨.field, n + 1⟩
  | ⟨.field, n⟩, .word name =>
    match fieldOf name with
    | .ok _ => some ⟨.sign, n⟩
    | .error _ => none
  | ⟨.sign, n⟩, .op _ => some ⟨.value, n⟩
  | ⟨.value, n⟩, .word value | ⟨.value, n⟩, .quoted value =>
    if Wildcard.isUsable value.toList then some ⟨.behind, n⟩ else none
  | ⟨.behind, n⟩, .and | ⟨.behind, n⟩, .or => some ⟨.field, n⟩
  | ⟨.behind, n + 1⟩, .closeParen => some ⟨.behind, n⟩
  | _, _ => none

/-- What is reported for a token that may not come here. -/
def fault (p : Place) (t : PlacedToken) : Fault :=
  match p.spot, t.2 with
  | .field, .word name => .unknownField name
  | .value, .word value | .value, .quoted value => .invalidPattern value
  | _, token => .unexpectedToken t.1 token.text

/-- What is reported for tokens from here on. -/
def verdict : Place → List PlacedToken → Option Fault
  | p, [] => if p = finish then none else some .unexpectedEnd
  | p, t :: ts =>
    match p.step t.2 with
    | some q => q.verdict ts
    | none => some (p.fault t)

lemma verdict_step {p q : Place} {t : PlacedToken} (h : p.step t.2 = some q)
    (ts : List PlacedToken) : p.verdict (t :: ts) = q.verdict ts := by
  rw [verdict, h]

lemma verdict_stuck {p : Place} {t : PlacedToken} (h : p.step t.2 = none)
    (ts : List PlacedToken) : p.verdict (t :: ts) = some (p.fault t) := by
  rw [verdict, h]

end Place

/-! ## The parser goes from place to place -/

/-- What a reader makes of tokens in front of which a field is expected: behind a part the same
number of parentheses is open, and a fault is what the places report. -/
def Tracked {α : Type} (ends : List Token) (n : Nat) (ts : List PlacedToken) :
    Except Fault (α × List PlacedToken) → Prop
  | .ok (_, rest) =>
    Place.verdict ⟨.field, n⟩ ts = Place.verdict ⟨.behind, n⟩ rest ∧ Stops ends rest ∧
      rest.length < ts.length
  | .error f => Place.verdict ⟨.field, n⟩ ts = some f

/-- A reader goes from place to place in fewer tokens than a bound, and does not stop in front of
certain tokens. -/
def Tracks {α : Type} (read : Reader α) (ends : List Token) (bound : Nat) : Prop :=
  ∀ ts n, ts.length < bound → Tracked ends n ts (read ts)

omit [Wildcard.Limit] in
lemma stops_nil (ts : List PlacedToken) : Stops [] ts := fun _ _ h => nomatch h

omit [Wildcard.Limit] in
lemma fieldOf_eq_error {name : String} {f : Fault} (h : fieldOf name = .error f) :
    f = .unknownField name := by
  unfold fieldOf at h
  split_ifs at h
  split at h
  · cases h
  · exact (Except.error.inj h).symm

lemma comparison_tracked (pos : Nat) (name : String) (ts : List PlacedToken) (n : Nat) :
    Tracked [] n ((pos, .word name) :: ts) (comparison name ts) := by
  cases hfield : fieldOf name with
  | error f =>
    have hstep : (⟨.field, n⟩ : Place).step (.word name) = none := by simp [Place.step, hfield]
    have hread : comparison name ts = .error f := by rw [comparison, hfield]; rfl
    rw [hread, fieldOf_eq_error hfield]
    exact Place.verdict_stuck hstep ts
  | ok field =>
    have hstep : (⟨.field, n⟩ : Place).step (.word name) = some ⟨.sign, n⟩ := by
      simp [Place.step, hfield]
    have hfirst := Place.verdict_step (t := (pos, .word name)) hstep ts
    rw [comparison, hfield, Except.ok_bind]
    rcases ts with _ | ⟨⟨p, sign⟩, ts⟩
    · exact hfirst
    cases sign with
    | openParen | closeParen | and | or | word | quoted => exact hfirst
    | op c =>
      rcases ts with _ | ⟨⟨q, t⟩, rest⟩
      · exact hfirst
      cases t with
      | openParen | closeParen | and | or | op => exact hfirst
      | word value | quoted value =>
        by_cases husable : Wildcard.isUsable value.toList
        · simp only [next, Except.ok_bind, if_pos husable]
          refine ⟨?_, stops_nil rest, by simp only [List.length_cons]; omega⟩
          rw [hfirst]
          simp [Place.verdict, Place.step, husable]
        · simp only [next, Except.ok_bind, if_neg husable]
          show Place.verdict _ _ = _
          rw [hfirst]
          simp [Place.verdict, Place.step, Place.fault, husable]

lemma Tracks.primary {inner : Reader Expr} {bound : Nat} (hinner : Tracks inner [.or, .and] bound) :
    Tracks (primary inner) [] (bound + 1) := by
  intro ts n hlength
  rcases ts with _ | ⟨⟨pos, t⟩, ts⟩
  · rfl
  cases t with
  | closeParen | and | or | op | quoted => rfl
  | word name => exact comparison_tracked pos name ts n
  | openParen =>
    have hopen : Place.verdict ⟨.field, n⟩ ((pos, .openParen) :: ts) =
        Place.verdict ⟨.field, n + 1⟩ ts := rfl
    have hin := hinner ts (n + 1) (Nat.lt_of_succ_lt_succ hlength)
    simp only [TargetFilter.primary, next, Except.ok_bind]
    cases hread : inner ts with
    | error f =>
      rw [hread] at hin
      exact hopen.trans hin
    | ok r =>
      obtain ⟨e, rest⟩ := r
      rw [hread] at hin
      obtain ⟨hverdict, hstops, hrest⟩ := hin
      rw [Except.ok_bind]
      have hbehind := hopen.trans hverdict
      rcases rest with _ | ⟨⟨p, t⟩, rest⟩
      · exact hbehind
      cases t with
      | closeParen =>
        refine ⟨hbehind, stops_nil rest, ?_⟩
        simp only [List.length_cons] at hrest ⊢
        omega
      | and | or => exact absurd (hstops _ rfl) (by simp)
      | openParen | op | word | quoted => exact hbehind

lemma Tracks.separated {part : Reader Expr} {sep : Token} (hsep : sep = .and ∨ sep = .or)
    {ends : List Token} {bound : Nat} (hpart : Tracks part ends bound) (fuel : Nat) :
    ∀ ts n, ts.length < bound → ts.length < fuel →
      Tracked (sep :: ends) n ts (separated part sep fuel ts) := by
  induction fuel with
  | zero => intro ts n _ hfuel; exact absurd hfuel (Nat.not_lt_zero _)
  | succ fuel ih =>
    intro ts n hbound hfuel
    have hfirst := hpart ts n hbound
    rw [TargetFilter.separated]
    cases hread : part ts with
    | error f =>
      rw [hread] at hfirst
      exact hfirst
    | ok r =>
      obtain ⟨e, rest⟩ := r
      rw [hread] at hfirst
      obtain ⟨hverdict, hstops, hrest⟩ := hfirst
      rw [Except.ok_bind]
      rcases rest with _ | ⟨⟨pos, t⟩, rest⟩
      · exact ⟨hverdict, by simp [Stops], hrest⟩
      dsimp only
      rw [List.length_cons] at hrest
      split_ifs with ht
      · -- behind a separator the next part begins at the same depth
        subst ht
        have hsame : Place.verdict ⟨.behind, n⟩ ((pos, t) :: rest) =
            Place.verdict ⟨.field, n⟩ rest := by rcases hsep with rfl | rfl <;> rfl
        have hmore := ih rest n (by omega) (by omega)
        cases hreads : TargetFilter.separated part t fuel rest with
        | error f =>
          rw [hreads] at hmore
          exact (hverdict.trans hsame).trans hmore
        | ok r =>
          obtain ⟨es, last⟩ := r
          rw [hreads] at hmore
          exact ⟨(hverdict.trans hsame).trans hmore.1, hmore.2.1, hmore.2.2.trans (by omega)⟩
      · refine ⟨hverdict, fun u hu hmem => ?_, by rw [List.length_cons]; exact hrest⟩
        rcases List.mem_cons.1 hmem with heq | hmem
        · obtain rfl : (pos, t) = u := by simpa using hu
          exact ht heq
        · exact hstops u hu hmem

/-- Parts that are joined go where the parts go. -/
lemma Tracked.join {ends : List Token} {n : Nat} {ts : List PlacedToken}
    {r : Except Fault (List Expr × List PlacedToken)} (wrap : List Expr → Expr)
    (h : Tracked ends n ts r) :
    Tracked ends n ts (do
      let (es, rest) ← r
      return (join wrap es, rest)) := by
  cases r with
  | error f => exact h
  | ok r => exact h

lemma Tracks.conjunction {inner : Reader Expr} {bound : Nat}
    (hinner : Tracks inner [.or, .and] bound) :
    Tracks (conjunction inner) [.and] (bound + 1) := by
  intro ts n hlength
  exact (hinner.primary.separated (.inl rfl) (ts.length + 1) ts n hlength (Nat.lt_succ_self _)).join
    .all

/-- Fuel above the number of tokens is enough. -/
lemma disjunction_tracks (bound : Nat) : Tracks (disjunction bound) [.or, .and] bound := by
  induction bound with
  | zero => intro ts n hlength; exact absurd hlength (Nat.not_lt_zero _)
  | succ bound ih =>
    intro ts n hlength
    exact (ih.conjunction.separated (.inr rfl) (ts.length + 1) ts n hlength
      (Nat.lt_succ_self _)).join .any

/-- **The parser reports what the places report.** -/
theorem ofTokens_verdict {ts : List PlacedToken} (hne : ts ≠ []) :
    match ofTokens ts with
    | .ok _ => Place.start.verdict ts = none
    | .error f => Place.start.verdict ts = some f := by
  have hread := disjunction_tracks (ts.length + 1) ts 0 (Nat.lt_succ_self _)
  rw [ofTokens, if_neg (by simpa using hne)]
  cases hr : disjunction (ts.length + 1) ts with
  | error f =>
    rw [hr] at hread
    exact hread
  | ok r =>
    obtain ⟨e, rest⟩ := r
    rw [hr] at hread
    obtain ⟨hverdict, hstops, -⟩ := hread
    rw [Except.ok_bind]
    rcases rest with _ | ⟨⟨p, t⟩, rest⟩
    · exact hverdict
    cases t with
    | and | or => exact absurd (hstops _ rfl) (by simp)
    | openParen | closeParen | op | word | quoted => exact hverdict

/-! ## Beginnings and ends -/

namespace Place

/-- The place behind tokens, if all of them may come. -/
def run (p : Place) (ts : List Token) : Option Place := ts.foldlM step p

@[simp] lemma run_nil (p : Place) : p.run [] = some p := rfl

lemma run_cons (p : Place) (t : Token) (ts : List Token) :
    p.run (t :: ts) = (p.step t).bind fun q => q.run ts := List.foldlM_cons

lemma run_append (p : Place) (ts us : List Token) :
    p.run (ts ++ us) = (p.run ts).bind fun q => q.run us := List.foldlM_append

/-- Nothing is reported if tokens lead to the end of a filter. -/
lemma verdict_eq_none_iff {p : Place} {ts : List PlacedToken} :
    p.verdict ts = none ↔ p.run (bare ts) = some finish := by
  induction ts generalizing p with
  | nil =>
    rw [verdict, bare_nil, run_nil, Option.some.injEq]
    split_ifs with hp <;> simp [hp]
  | cons t ts ih =>
    rw [bare_cons, run_cons]
    cases hstep : p.step t.2 with
    | none => rw [verdict_stuck hstep]; simp
    | some q => rw [verdict_step hstep, ih, Option.bind_some]

/-- What is reported: the end, or the first token that may not come. -/
lemma verdict_eq_some {p : Place} {ts : List PlacedToken} {f : Fault} (h : p.verdict ts = some f) :
    (f = .unexpectedEnd ∧ ∃ q, p.run (bare ts) = some q ∧ q ≠ finish) ∨
      ∃ before t after q, ts = before ++ t :: after ∧ p.run (bare before) = some q ∧
        q.step t.2 = none ∧ f = q.fault t := by
  induction ts generalizing p with
  | nil =>
    rw [verdict] at h
    split_ifs at h with hp
    exact .inl ⟨(Option.some.inj h).symm, p, rfl, hp⟩
  | cons t ts ih =>
    cases hstep : p.step t.2 with
    | none =>
      rw [verdict_stuck hstep] at h
      exact .inr ⟨[], t, ts, p, rfl, rfl, hstep, (Option.some.inj h).symm⟩
    | some q =>
      rw [verdict_step hstep] at h
      rcases ih h with ⟨hf, r, hrun, hr⟩ | ⟨before, u, after, r, rfl, hrun, hu, hf⟩
      · refine .inl ⟨hf, r, ?_, hr⟩
        rw [bare_cons, run_cons, hstep, Option.bind_some, hrun]
      · refine .inr ⟨t :: before, u, after, r, rfl, ?_, hu, hf⟩
        rw [bare_cons, run_cons, hstep, Option.bind_some, hrun]

lemma run_replicate_closeParen (n : Nat) :
    (⟨.behind, n⟩ : Place).run (List.replicate n .closeParen) = some finish := by
  induction n with
  | zero => rfl
  | succ n ih =>
    rw [List.replicate_succ, run_cons]
    exact ih

/-- A way from a place to the end of a filter. -/
def completion : Place → List Token
  | ⟨.field, n⟩ => .word "id" :: .op .equal :: .word "id" :: List.replicate n .closeParen
  | ⟨.sign, n⟩ => .op .equal :: .word "id" :: List.replicate n .closeParen
  | ⟨.value, n⟩ => .word "id" :: List.replicate n .closeParen
  | ⟨.behind, n⟩ => List.replicate n .closeParen

lemma run_completion (p : Place) : p.run p.completion = some finish := by
  obtain ⟨spot, n⟩ := p
  have hend := run_replicate_closeParen n
  have hvalue : (⟨.value, n⟩ : Place).run (completion ⟨.value, n⟩) = some finish := by
    rw [completion, run_cons]
    exact hend
  have hsign : (⟨.sign, n⟩ : Place).run (completion ⟨.sign, n⟩) = some finish := by
    rw [completion, run_cons]
    exact hvalue
  cases spot with
  | field =>
    rw [completion, run_cons]
    exact hsign
  | sign => exact hsign
  | value => exact hvalue
  | behind => exact hend

lemma completion_ne_nil {p : Place} (hp : p ≠ finish) : p.completion ≠ [] := by
  intro hnil
  have hend := p.run_completion
  rw [hnil, run_nil] at hend
  exact hp (Option.some.inj hend)

omit [Wildcard.Limit] in
lemma isLexeme_of_mem_completion {p : Place} {t : Token} (h : t ∈ p.completion) : t.IsLexeme := by
  have hid : Token.IsLexeme (.word "id") := isLexeme_word (by decide) (by decide)
  obtain ⟨spot, n⟩ := p
  cases spot <;> simp only [completion, List.mem_cons, List.mem_replicate] at h
  · rcases h with rfl | rfl | rfl | ⟨-, rfl⟩
    exacts [hid, trivial, hid, trivial]
  · rcases h with rfl | rfl | ⟨-, rfl⟩
    exacts [trivial, hid, trivial]
  · rcases h with rfl | ⟨-, rfl⟩
    exacts [hid, trivial]
  · obtain ⟨-, rfl⟩ := h
    trivial

/-- Where a field is expected next. -/
lemma spot_of_step {p q : Place} {t : Token} (h : p.step t = some q) :
    (q.spot = .field ↔ t = .openParen ∨ t = .and ∨ t = .or) ∧
      (q.spot = .value ↔ ∃ c, t = .op c) := by
  unfold step at h
  split at h
  case h_2 => split at h <;> cases h; simp
  case h_4 | h_5 => split at h <;> cases h; simp
  case h_9 => cases h
  all_goals cases h; simp

end Place

/-- The tokens of an accepted filter. -/
def Accepted (ts : List Token) : Prop :=
  ∃ source us e, tokenize source.toList = .ok us ∧ bare us = ts ∧ parse source = .ok e

/-- Tokens with which some accepted filter begins. -/
def Begins (ts : List Token) : Prop := ∃ more, Accepted (ts ++ more)

/-- A field is expected at the beginning, and behind an opening parenthesis or a separator. -/
def FieldExpected (before : List Token) : Prop :=
  ∀ t ∈ before.getLast?, t = .openParen ∨ t = .and ∨ t = .or

/-- A value is expected behind a sign. -/
def ValueExpected (before : List Token) : Prop := ∃ c, before.getLast? = some (.op c)

/-- What is reported for a token behind others. -/
inductive Blame (before : List Token) : PlacedToken → Fault → Prop
  | field {pos : Nat} {name : String} (h : FieldExpected before) :
      Blame before (pos, .word name) (.unknownField name)
  /-- A value that is too large a pattern. -/
  | value {pos : Nat} {t : Token} {value : String} (h : ValueExpected before)
      (hvalue : IsValue t value) (hsize : Wildcard.isUsable value.toList = false) :
      Blame before (pos, t) (.invalidPattern value)
  | token {pos : Nat} {t : Token} (hfield : FieldExpected before → ∀ name, t ≠ .word name)
      (hvalue : ValueExpected before → ∀ value, ¬IsValue t value) :
      Blame before (pos, t) (.unexpectedToken pos t.text)

lemma Blame.ne {before : List Token} {t : PlacedToken} {f : Fault} (h : Blame before t f) :
    f ≠ .empty ∧ f ≠ .unexpectedEnd := by
  cases h <;> exact ⟨nofun, nofun⟩

/-- A place knows whether a field or a value is expected. -/
lemma Place.spot_of_run {before : List Token} {p : Place} (h : start.run before = some p) :
    (p.spot = .field ↔ FieldExpected before) ∧ (p.spot = .value ↔ ValueExpected before) := by
  rcases List.eq_nil_or_concat before with rfl | ⟨init, t, rfl⟩
  · cases h
    simp [start, FieldExpected, ValueExpected]
  · rw [List.concat_eq_append, run_append] at h
    obtain ⟨q, -, hq⟩ := Option.bind_eq_some_iff.1 h
    rw [run_cons] at hq
    obtain ⟨r, hstep, hr⟩ := Option.bind_eq_some_iff.1 hq
    cases hr
    simpa [FieldExpected, ValueExpected] using spot_of_step hstep

/-- What a place reports is what the tokens in front of it say. -/
lemma Place.blame {before : List Token} {p : Place} {t : PlacedToken}
    (hrun : start.run before = some p) (hstep : p.step t.2 = none) :
    Blame before t (p.fault t) := by
  obtain ⟨hfield, hvalue⟩ := spot_of_run hrun
  obtain ⟨pos, token⟩ := t
  obtain ⟨spot, n⟩ := p
  cases spot with
  | field =>
    have hnot : ¬ValueExpected before := fun h => nomatch hvalue.2 h
    cases token with
    | word name => exact .field (hfield.1 rfl)
    | _ => exact .token (fun _ _ h => nomatch h) fun h => absurd h hnot
  | value =>
    have hnot : ¬FieldExpected before := fun h => nomatch hfield.2 h
    cases token with
    | word value =>
      refine .value (hvalue.1 rfl) (.word value) ?_
      simpa [step] using hstep
    | quoted value =>
      refine .value (hvalue.1 rfl) (.quoted value) ?_
      simpa [step] using hstep
    | _ => exact .token (fun h => absurd h hnot) fun _ _ h => nomatch h
  | sign | behind =>
    exact .token (fun h => nomatch hfield.2 h) fun h => nomatch hvalue.2 h

omit [Wildcard.Limit] in
/-- Tokens are written with a blank in front of each. -/
lemma written_apart {ts : List Token} (hlexemes : ∀ t ∈ ts, t.IsLexeme) :
    Written ts (ts.flatMap fun t => ' ' :: t.spelling) := by
  induction ts with
  | nil => exact .nil blank_nil
  | cons t ts ih =>
    obtain ⟨ht, hts⟩ := List.forall_mem_cons.1 hlexemes
    refine .cons blank_space ht (fun _ _ c hc => ?_) (ih hts)
    -- the next token has its own blank in front
    cases ts with
    | nil => cases hc
    | cons u ts =>
      obtain rfl : ' ' = c := by simpa using hc
      decide

/-- Whether a filter is accepted is known from where its tokens lead. -/
lemma run_of_accepted {ts : List Token} (h : Accepted ts) :
    Place.start.run ts = some .finish := by
  obtain ⟨source, us, e, hus, rfl, hparse⟩ := h
  rw [parse, parseChars, hus, Except.ok_bind] at hparse
  have hne : us ≠ [] := by
    rintro rfl
    cases hparse
  have hverdict := ofTokens_verdict hne
  rw [hparse] at hverdict
  exact Place.verdict_eq_none_iff.1 hverdict

lemma accepted_of_run {ts : List Token} (hlexemes : ∀ t ∈ ts, t.IsLexeme)
    (h : Place.start.run ts = some .finish) : Accepted ts := by
  obtain ⟨us, hus, rfl⟩ := tokenize_written (written_apart hlexemes)
  have hne : us ≠ [] := by
    rintro rfl
    cases h
  have hverdict := ofTokens_verdict hne
  rw [Place.verdict_eq_none_iff.2 h] at hverdict
  cases hparse : ofTokens us with
  | error f =>
    rw [hparse] at hverdict
    cases hverdict
  | ok e =>
    refine ⟨String.ofList _, us, e, by rw [String.toList_ofList, hus], rfl, ?_⟩
    rw [parse, parseChars, String.toList_ofList, hus, Except.ok_bind, hparse]

/-- Tokens that lead to a place are the beginning of a filter. -/
lemma accepted_append_completion {ts : List Token} {p : Place} (hlexemes : ∀ t ∈ ts, t.IsLexeme)
    (h : Place.start.run ts = some p) : Accepted (ts ++ p.completion) := by
  refine accepted_of_run (fun t ht => ?_) ?_
  · exact (List.mem_append.1 ht).elim (hlexemes t) Place.isLexeme_of_mem_completion
  · rw [Place.run_append, h]
    exact p.run_completion

/-- Behind a token that may not come nothing helps. -/
lemma not_begins {ts : List Token} {p : Place} {t : Token} (h : Place.start.run ts = some p)
    (hstep : p.step t = none) : ¬Begins (ts ++ [t]) := by
  rintro ⟨more, hmore⟩
  have hrun := run_of_accepted hmore
  rw [List.append_assoc, Place.run_append, h, Option.bind_some, List.singleton_append,
    Place.run_cons, hstep] at hrun
  cases hrun

/-- **What is reported for a text is the first token with which it stops being the beginning of a
filter**, or the end if that is too early. -/
theorem parse_blames {source : String} {ts : List PlacedToken} {f : Fault}
    (htokens : tokenize source.toList = .ok ts) (hreject : parse source = .error f) :
    (f = .empty ↔ ts = []) ∧
    (f = .unexpectedEnd ↔ ts ≠ [] ∧ ∃ more, more ≠ [] ∧ Accepted (bare ts ++ more)) ∧
    (f ≠ .empty → f ≠ .unexpectedEnd →
      ∃ before t after, ts = before ++ t :: after ∧ Begins (bare before) ∧
        ¬Begins (bare before ++ [t.2]) ∧ Blame (bare before) t f) := by
  have hlexemes := isLexeme_of_tokenize htokens
  rw [parse, parseChars, htokens, Except.ok_bind] at hreject
  by_cases hnil : ts = []
  · subst hnil
    obtain rfl : Fault.empty = f := Except.error.inj hreject
    simp
  have hverdict := ofTokens_verdict hnil
  rw [hreject] at hverdict
  rcases Place.verdict_eq_some hverdict with
    ⟨rfl, p, hrun, hp⟩ | ⟨before, t, after, p, rfl, hrun, hstep, rfl⟩
  · -- something is missing, and the completion says what
    have hmore : ∃ more, more ≠ [] ∧ Accepted (bare ts ++ more) :=
      ⟨p.completion, Place.completion_ne_nil hp, accepted_append_completion hlexemes hrun⟩
    exact ⟨by simp [hnil], by simp [hnil, hmore], fun _ h => absurd rfl h⟩
  · have hblame := Place.blame hrun hstep
    have hdead := not_begins hrun hstep
    have hbegins : Begins (bare before) :=
      ⟨p.completion, accepted_append_completion
        (fun t ht => hlexemes t (by rw [bare_append]; exact List.mem_append_left _ ht)) hrun⟩
    refine ⟨iff_of_false hblame.ne.1 hnil, ⟨fun h => absurd h hblame.ne.2, ?_⟩,
      fun _ _ => ⟨before, t, after, rfl, hbegins, hdead, hblame⟩⟩
    -- a filter that goes on behind these tokens would go on behind the blamed one
    rintro ⟨-, more, -, haccepted⟩
    refine absurd ⟨bare after ++ more, ?_⟩ hdead
    simpa using haccepted

end

open scoped Wildcard in
theorem parse_blames_colour :
    tokenize "(tag==beta,colour==red)".toList = .ok
        [(0, .openParen), (1, .word "tag"), (4, .op .equal), (6, .word "beta"), (10, .or),
          (11, .word "colour"), (17, .op .equal), (19, .word "red"), (22, .closeParen)] ∧
      parse "(tag==beta,colour==red)" = .error (.unknownField "colour") ∧
      ∃ before t after,
        [(0, .openParen), (1, .word "tag"), (4, .op .equal), (6, .word "beta"), (10, .or),
          (11, .word "colour"), (17, .op .equal), (19, .word "red"), (22, .closeParen)] =
            before ++ t :: after ∧
        Begins (bare before) ∧ ¬Begins (bare before ++ [t.2]) ∧
        Blame (bare before) t (.unknownField "colour") := by
  have htokens : tokenize "(tag==beta,colour==red)".toList = .ok
      [(0, .openParen), (1, .word "tag"), (4, .op .equal), (6, .word "beta"), (10, .or),
        (11, .word "colour"), (17, .op .equal), (19, .word "red"), (22, .closeParen)] := by cbv
  have hreject : parse "(tag==beta,colour==red)" = .error (.unknownField "colour") := by
    rw [parse, parseChars, htokens]
    rfl
  exact ⟨htokens, hreject, (parse_blames htokens hreject).2.2 (by simp) (by simp)⟩

end StagedRollout.TargetFilter
