/-
# The grammar of filters

The tokens of a filter and its tree, as a relation that knows nothing of reading from left to
right: alternatives with commas between them, each of them parts with semicolons between, each
of those a comparison or a filter in parentheses.  The parser accepts the token lists that the
grammar derives, and the tree it returns is the only one there is.

The parser stops where no part can go on, so what is derived is found in front of any rest that
does not begin with a separator.  The depth of parentheses is bounded by the number of tokens,
and the fuel by the depth.
-/
import Mathlib
import StagedRollout.Filter.Parser
import StagedRollout.Proofs.Except

namespace StagedRollout.TargetFilter

/-! ## Derivations -/

/-- The words that name a field. -/
inductive IsField : String → Field → Prop
  | id : IsField "id" .id
  | controllerId : IsField "controllerid" .id
  | name : IsField "name" .name
  | tag : IsField "tag" .tag
  | ofKey {key : String} (h : key ≠ "") : IsField ("attribute." ++ key) (.attribute key)

/-- The tokens that can be compared with, and what they say. -/
inductive IsValue : Token → String → Prop
  | word (value : String) : IsValue (.word value) value
  | quoted (value : String) : IsValue (.quoted value) value

/-- One phrase or more, with a separator between each two of them. -/
inductive Phrases (sep : Token) (phrase : Expr → List Token → Prop) :
    List Expr → List Token → Prop
  | last {e : Expr} {ts : List Token} (h : phrase e ts) : Phrases sep phrase [e] ts
  | cons {e : Expr} {es : List Expr} {ts us : List Token} (h : phrase e ts)
      (rest : Phrases sep phrase es us) : Phrases sep phrase (e :: es) (ts ++ sep :: us)

/-- Phrases with a separator between them as one: a single phrase is not wrapped. -/
inductive Level (sep : Token) (wrap : List Expr → Expr) (phrase : Expr → List Token → Prop) :
    Expr → List Token → Prop
  | single {e : Expr} {ts : List Token} (h : phrase e ts) : Level sep wrap phrase e ts
  | several {e e' : Expr} {es : List Expr} {ts : List Token}
      (h : Phrases sep phrase (e :: e' :: es) ts) :
      Level sep wrap phrase (wrap (e :: e' :: es)) ts

/-- A comparison, or a filter in parentheses, which leave no trace in the tree. -/
inductive Part : Expr → List Token → Prop
  | comparison {name value : String} {field : Field} {c : Comparison} {t : Token}
      (hfield : IsField name field) (hvalue : IsValue t value) :
      Part (.compare field c value) [.word name, .op c, t]
  | parens {e : Expr} {ts : List Token} (h : Level .or .any (Level .and .all Part) e ts) :
      Part e (.openParen :: (ts ++ [.closeParen]))

/-- Parts that all have to hold. -/
def Conjunction : Expr → List Token → Prop := Level .and .all Part

/-- The tree of a filter and its tokens. -/
def Derives : Expr → List Token → Prop := Level .or .any Conjunction

/-- Every value behind a comparison sign can be used in a comparison. -/
def Usable [Wildcard.Limit] (ts : List Token) : Prop :=
  ∀ c t value, [.op c, t] <:+: ts → IsValue t value → Wildcard.isUsable value.toList

lemma Usable.mono [Wildcard.Limit] {ts us : List Token} (h : Usable us) (hin : ts <:+: us) :
    Usable ts :=
  fun c t value hpair hvalue => h c t value (hpair.trans hin) hvalue

/-- The tokens without their positions. -/
def bare (ts : List PlacedToken) : List Token := ts.map Prod.snd

@[simp] lemma bare_nil : bare [] = [] := rfl

@[simp] lemma bare_cons (t : PlacedToken) (ts : List PlacedToken) :
    bare (t :: ts) = t.2 :: bare ts := rfl

@[simp] lemma bare_append (ts us : List PlacedToken) : bare (ts ++ us) = bare ts ++ bare us :=
  List.map_append

@[simp] lemma length_bare (ts : List PlacedToken) : (bare ts).length = ts.length :=
  List.length_map _

lemma bare_eq_append {ts : List PlacedToken} {us vs : List Token} (h : bare ts = us ++ vs) :
    ∃ ts₁ ts₂, ts = ts₁ ++ ts₂ ∧ bare ts₁ = us ∧ bare ts₂ = vs := List.map_eq_append_iff.1 h

lemma bare_eq_cons {ts : List PlacedToken} {u : Token} {us : List Token} (h : bare ts = u :: us) :
    ∃ pos ts', ts = (pos, u) :: ts' ∧ bare ts' = us := by
  obtain ⟨⟨pos, t⟩, ts', rfl, rfl, rfl⟩ := List.map_eq_cons_iff.1 h
  exact ⟨pos, ts', rfl, rfl⟩

/-! ## Names of fields -/

lemma fieldOf_eq_ok_iff {name : String} {field : Field} :
    fieldOf name = .ok field ↔ IsField name field := by
  constructor
  · intro h
    unfold fieldOf at h
    split_ifs at h with hid hname htag
    · cases h
      obtain rfl | rfl := hid
      exacts [.id, .controllerId]
    · cases h
      exact hname ▸ .name
    · cases h
      exact htag ▸ .tag
    · split at h
      · next c key hkey =>
        cases h
        have hlist := Text.dropStart_eq_some_iff.1 hkey
        have : name = "attribute." ++ String.ofList (c :: key) :=
          String.toList_injective (by simp [hlist])
        rw [this]
        exact .ofKey (by simp)
      · cases h
  · intro h
    cases h with
    | id | controllerId | name | tag => decide
    | @ofKey key hkey =>
      have hhead : ∀ s : String, s.toList.head? ≠ some 'a' → "attribute." ++ key ≠ s := by
        rintro _ hs rfl
        exact hs (by simp)
      obtain ⟨c, cs, hcs⟩ : ∃ c cs, key.toList = c :: cs :=
        List.exists_cons_of_ne_nil (fun h => hkey (String.toList_eq_nil_iff.1 h))
      have hdrop : Text.dropStart "attribute.".toList ("attribute." ++ key).toList =
          some (c :: cs) := by
        rw [Text.dropStart_eq_some_iff, String.toList_append, hcs]
      unfold fieldOf
      rw [if_neg (not_or.2 ⟨hhead _ (by decide), hhead _ (by decide)⟩),
        if_neg (hhead _ (by decide)), if_neg (hhead _ (by decide)), hdrop]
      simp [← hcs]

/-! ## What is accepted is derived -/

/-- What a reader accepts is a phrase and a rest. -/
def Sound (read : Reader Expr) (phrase : Expr → List Token → Prop) : Prop :=
  ∀ ts e rest, read ts = .ok (e, rest) → ∃ us, ts = us ++ rest ∧ phrase e (bare us)

lemma next_eq_ok {ts rest : List PlacedToken} {t : PlacedToken}
    (h : next ts = .ok (t, rest)) : ts = t :: rest := by
  cases ts with
  | nil => cases h
  | cons => cases h; rfl

lemma comparison_sound [Wildcard.Limit] (pos : Nat) {name : String}
    {ts rest : List PlacedToken} {e : Expr} (h : comparison name ts = .ok (e, rest)) :
    ∃ us, (pos, .word name) :: ts = us ++ rest ∧ Part e (bare us) := by
  obtain ⟨field, hname, hsign⟩ := Except.bind_eq_ok h
  obtain ⟨⟨⟨p, t⟩, ts'⟩, hnext, hbehind⟩ := Except.bind_eq_ok hsign
  obtain rfl := next_eq_ok hnext
  have hfield := fieldOf_eq_ok_iff.1 hname
  cases t with
  | op c =>
    obtain ⟨⟨⟨q, v⟩, ts''⟩, hnext', hvalue⟩ := Except.bind_eq_ok hbehind
    obtain rfl := next_eq_ok hnext'
    cases v with
    | word value =>
      dsimp only at hvalue
      split_ifs at hvalue with husable
      cases hvalue
      exact ⟨[_, _, _], rfl, .comparison hfield (.word value)⟩
    | quoted value =>
      dsimp only at hvalue
      split_ifs at hvalue with husable
      cases hvalue
      exact ⟨[_, _, _], rfl, .comparison hfield (.quoted value)⟩
    | _ => cases hvalue
  | _ => cases hbehind

lemma Sound.primary [Wildcard.Limit] {inner : Reader Expr} (hinner : Sound inner Derives) :
    Sound (primary inner) Part := by
  intro ts e rest h
  obtain ⟨⟨⟨pos, t⟩, ts'⟩, hnext, hbehind⟩ := Except.bind_eq_ok h
  obtain rfl := next_eq_ok hnext
  cases t with
  | openParen =>
    obtain ⟨⟨e', mid⟩, hread, hclose⟩ := Except.bind_eq_ok hbehind
    obtain ⟨us, rfl, hus⟩ := hinner _ _ _ hread
    obtain ⟨⟨⟨p, close⟩, ts''⟩, hnext', hend⟩ := Except.bind_eq_ok hclose
    obtain rfl := next_eq_ok hnext'
    cases close with
    | closeParen =>
      cases hend
      exact ⟨(pos, .openParen) :: (us ++ [(p, .closeParen)]), by simp, by simpa using .parens hus⟩
    | _ => cases hend
  | word name => exact comparison_sound pos hbehind
  | _ => cases hbehind

lemma Sound.separated {part : Reader Expr} {phrase : Expr → List Token → Prop} {sep : Token}
    (hpart : Sound part phrase) (fuel : Nat) :
    ∀ ts es rest, separated part sep fuel ts = .ok (es, rest) →
      ∃ us, ts = us ++ rest ∧ Phrases sep phrase es (bare us) := by
  induction fuel with
  | zero => intro ts es rest h; cases h
  | succ fuel ih =>
    intro ts es rest h
    obtain ⟨⟨e, mid⟩, hread, hbehind⟩ := Except.bind_eq_ok h
    obtain ⟨us, rfl, hus⟩ := hpart _ _ _ hread
    match mid, hbehind with
    | [], hbehind =>
      cases hbehind
      exact ⟨us, rfl, .last hus⟩
    | (pos, t) :: mid, hbehind =>
      dsimp only at hbehind
      split_ifs at hbehind with hsep
      · obtain ⟨⟨es', rest'⟩, hmore, hend⟩ := Except.bind_eq_ok hbehind
        obtain ⟨vs, rfl, hvs⟩ := ih _ _ _ hmore
        cases hend
        subst hsep
        exact ⟨us ++ (pos, t) :: vs, by simp, by simpa using .cons hus hvs⟩
      · cases hbehind
        exact ⟨us, rfl, .last hus⟩

lemma Phrases.level {sep : Token} {phrase : Expr → List Token → Prop} {ts : List Token}
    {es : List Expr} (wrap : List Expr → Expr) (h : Phrases sep phrase es ts) :
    Level sep wrap phrase (join wrap es) ts := by
  cases h with
  | last h => exact .single h
  | cons h rest =>
    cases rest with
    | last h' => exact .several (.cons h (.last h'))
    | cons h' rest => exact .several (.cons h (.cons h' rest))

lemma Sound.conjunction [Wildcard.Limit] {inner : Reader Expr} (hinner : Sound inner Derives) :
    Sound (conjunction inner) Conjunction := by
  intro ts e rest h
  obtain ⟨⟨es, rest'⟩, hread, hend⟩ := Except.bind_eq_ok h
  obtain ⟨us, rfl, hus⟩ := hinner.primary.separated _ _ _ _ hread
  cases hend
  exact ⟨us, rfl, hus.level .all⟩

lemma disjunction_sound [Wildcard.Limit] (fuel : Nat) : Sound (disjunction fuel) Derives := by
  induction fuel with
  | zero => intro ts e rest h; cases h
  | succ fuel ih =>
    intro ts e rest h
    obtain ⟨⟨es, rest'⟩, hread, hend⟩ := Except.bind_eq_ok h
    obtain ⟨us, rfl, hus⟩ := ih.conjunction.separated _ _ _ _ hread
    cases hend
    exact ⟨us, rfl, hus.level .any⟩

/-! ## What is derived is accepted -/

/-- The tokens do not begin with one of a list. -/
def Stops (ends : List Token) (ts : List PlacedToken) : Prop := ∀ t ∈ ts.head?, t.2 ∉ ends

/-- A phrase below a length is read in front of every rest at which it ends. -/
def Complete [Wildcard.Limit] (read : Reader Expr) (phrase : Expr → List Token → Prop)
    (ends : List Token) (bound : Nat) : Prop :=
  ∀ us e rest, us.length < bound → Usable (bare us) → phrase e (bare us) → Stops ends rest →
    read (us ++ rest) = .ok (e, rest)

lemma comparison_complete [Wildcard.Limit] {name value : String} {field : Field}
    {c : Comparison} {t : Token} (hfield : IsField name field) (hvalue : IsValue t value)
    (husable : Wildcard.isUsable value.toList) (p q : Nat) (rest : List PlacedToken) :
    comparison name ((p, .op c) :: (q, t) :: rest) = .ok (.compare field c value, rest) := by
  have hname := fieldOf_eq_ok_iff.2 hfield
  cases hvalue <;> simp [comparison, hname, next, husable]

lemma Complete.primary [Wildcard.Limit] {inner : Reader Expr} {bound : Nat}
    (hinner : Complete inner Derives [.or, .and] bound) :
    Complete (primary inner) Part [] (bound + 1) := by
  intro us e rest hlength husable h hstops
  generalize hts : bare us = ts at h husable
  cases h with
  | comparison hfield hvalue =>
    obtain ⟨pos, us₁, rfl, hts₁⟩ := bare_eq_cons hts
    obtain ⟨p, us₂, rfl, hts₂⟩ := bare_eq_cons hts₁
    obtain ⟨q, us₃, rfl, hts₃⟩ := bare_eq_cons hts₂
    obtain rfl := List.map_eq_nil_iff.1 hts₃
    exact comparison_complete hfield hvalue
      (husable _ _ _ (List.infix_cons List.infix_rfl) hvalue) p q rest
  | @parens e ts h =>
    obtain ⟨pos, us₁, rfl, hts₁⟩ := bare_eq_cons hts
    obtain ⟨us₂, last, rfl, rfl, hlast⟩ := bare_eq_append hts₁
    obtain ⟨p, us₃, rfl, hend⟩ := bare_eq_cons hlast
    obtain rfl := List.map_eq_nil_iff.1 hend
    have hread : inner (us₂ ++ (p, .closeParen) :: rest) = .ok (e, (p, .closeParen) :: rest) := by
      refine hinner us₂ e _ ?_ (husable.mono ?_) h (by simp [Stops])
      · simp only [List.length_cons, List.length_append, List.length_nil] at hlength
        omega
      · exact List.infix_cons (List.infix_append [] (bare us₂) [Token.closeParen])
    simp [TargetFilter.primary, next, hread]

lemma Complete.separated [Wildcard.Limit] {part : Reader Expr}
    {phrase : Expr → List Token → Prop} {sep : Token} {ends : List Token} {bound : Nat}
    (hpart : Complete part phrase ends bound)
    (hsep : sep ∉ ends) {ts : List Token} {es : List Expr} (h : Phrases sep phrase es ts) :
    ∀ us rest fuel, bare us = ts → us.length < bound → Usable ts → us.length < fuel →
      Stops (sep :: ends) rest → separated part sep fuel (us ++ rest) = .ok (es, rest) := by
  induction h with
  | @last e ts h =>
    intro us rest fuel hus hlength husable hfuel hstops
    subst hus
    obtain ⟨fuel, rfl⟩ := Nat.exists_eq_add_one_of_ne_zero (Nat.ne_zero_of_lt hfuel)
    have hread := hpart us e rest hlength husable h
      (fun t ht hmem => hstops t ht (List.mem_cons_of_mem _ hmem))
    cases rest with
    | nil =>
      rw [List.append_nil] at hread ⊢
      simp [TargetFilter.separated, hread]
    | cons t rest =>
      have hne : t.2 ≠ sep := fun heq => hstops t (by simp) (by simp [heq])
      simp [TargetFilter.separated, hread, hne]
  | @cons e es ts₁ ts₂ h _ ih =>
    intro us rest fuel hus hlength husable hfuel hstops
    obtain ⟨us₁, us', rfl, rfl, hus'⟩ := bare_eq_append hus
    obtain ⟨pos, us₂, rfl, rfl⟩ := bare_eq_cons hus'
    obtain ⟨fuel, rfl⟩ := Nat.exists_eq_add_one_of_ne_zero (Nat.ne_zero_of_lt hfuel)
    simp only [List.length_append, List.length_cons] at hlength hfuel
    have hread : part (us₁ ++ (pos, sep) :: (us₂ ++ rest)) =
        .ok (e, (pos, sep) :: (us₂ ++ rest)) :=
      hpart us₁ e _ (by omega) (husable.mono (List.infix_append [] _ _)) h (by simpa [Stops])
    have hmore := ih us₂ rest fuel rfl (by omega)
      (husable.mono (by simpa using List.infix_append (bare us₁ ++ [sep]) (bare us₂) []))
      (by omega) hstops
    simp [TargetFilter.separated, hread, hmore]

lemma Level.phrases {sep : Token} {wrap : List Expr → Expr} {phrase : Expr → List Token → Prop}
    {ts : List Token} {e : Expr} (h : Level sep wrap phrase e ts) :
    ∃ es, Phrases sep phrase es ts ∧ e = join wrap es := by
  cases h with
  | single h => exact ⟨_, .last h, rfl⟩
  | several h => exact ⟨_, h, rfl⟩

lemma Complete.conjunction [Wildcard.Limit] {inner : Reader Expr} {bound : Nat}
    (hinner : Complete inner Derives [.or, .and] bound) :
    Complete (conjunction inner) Conjunction [.and] (bound + 1) := by
  intro us e rest hlength husable h hstops
  obtain ⟨es, hes, rfl⟩ := h.phrases
  have hread := hinner.primary.separated (by simp) hes us rest ((us ++ rest).length + 1) rfl
    hlength husable (by rw [List.length_append]; omega) hstops
  simp only [TargetFilter.conjunction, hread]
  rfl

/-- Fuel above the number of tokens is enough. -/
lemma disjunction_complete [Wildcard.Limit] (bound : Nat) :
    Complete (disjunction bound) Derives [.or, .and] bound := by
  induction bound with
  | zero => intro us e rest hlength; omega
  | succ bound ih =>
    intro us e rest hlength husable h hstops
    obtain ⟨es, hes, rfl⟩ := h.phrases
    have hread := ih.conjunction.separated (by simp) hes us rest ((us ++ rest).length + 1) rfl
      hlength husable (by rw [List.length_append]; omega) hstops
    simp only [disjunction, hread]
    rfl

/-! ## Whole filters -/

lemma Phrases.ne_nil {sep : Token} {phrase : Expr → List Token → Prop}
    (hphrase : ∀ e, ¬phrase e []) {es : List Expr} : ¬Phrases sep phrase es [] := by
  intro h
  generalize hts : [] = ts at h
  cases h with
  | last h => exact hphrase _ (hts ▸ h)
  | cons => simp at hts

lemma Level.ne_nil {sep : Token} {wrap : List Expr → Expr} {phrase : Expr → List Token → Prop}
    (hphrase : ∀ e, ¬phrase e []) (e : Expr) : ¬Level sep wrap phrase e [] := by
  intro h
  obtain ⟨es, hes, -⟩ := h.phrases
  exact Phrases.ne_nil hphrase hes

lemma not_derives_nil (e : Expr) : ¬Derives e [] :=
  Level.ne_nil (Level.ne_nil fun _ h => nomatch h) e

lemma derives_of_ofTokens [Wildcard.Limit] {ts : List PlacedToken} {e : Expr}
    (h : ofTokens ts = .ok e) : Derives e (bare ts) := by
  unfold ofTokens at h
  split_ifs at h with hempty
  obtain ⟨⟨e', rest⟩, hread, hend⟩ := Except.bind_eq_ok h
  obtain ⟨us, rfl, hus⟩ := disjunction_sound _ _ _ _ hread
  cases rest with
  | nil =>
    cases hend
    simpa using hus
  | cons t rest => cases hend

lemma ofTokens_of_derives [Wildcard.Limit] {ts : List PlacedToken} {e : Expr}
    (husable : Usable (bare ts)) (h : Derives e (bare ts)) : ofTokens ts = .ok e := by
  have hne : ts ≠ [] := by
    rintro rfl
    exact not_derives_nil e h
  have hread := disjunction_complete (ts.length + 1) ts e [] (by simp) husable h (by simp [Stops])
  rw [List.append_nil] at hread
  simp [ofTokens, hne, hread]

/-- **A text is a filter if its tokens are derived, and its tree is the one that they have.** -/
theorem parse_eq_ok_iff_derives [Wildcard.Limit] (source : String)
    (hlimit : ∀ ts, tokenize source.toList = .ok ts → Usable (bare ts)) :
    (∀ e, parse source = .ok e ↔
      ∃ ts, tokenize source.toList = .ok ts ∧ Derives e (bare ts)) ∧
    ∀ ts e e', tokenize source.toList = .ok ts → Derives e (bare ts) → Derives e' (bare ts) →
      e = e' := by
  refine ⟨fun e => ⟨fun h => ?_, ?_⟩, fun ts e e' hts h h' => ?_⟩
  · obtain ⟨ts, hts, hparse⟩ := Except.bind_eq_ok h
    exact ⟨ts, hts, derives_of_ofTokens hparse⟩
  · rintro ⟨ts, hts, h⟩
    rw [parse, parseChars, hts, Except.ok_bind]
    exact ofTokens_of_derives (hlimit ts hts) h
  · have hparse := ofTokens_of_derives (hlimit ts hts) h
    rw [ofTokens_of_derives (hlimit ts hts) h'] at hparse
    exact (Except.ok.inj hparse).symm

lemma Usable.of_forall [Wildcard.Limit] {ts : List Token}
    (h : ∀ t ∈ ts, ∀ value, IsValue t value → Wildcard.isUsable value.toList) : Usable ts :=
  fun _ t value hpair => h t (hpair.subset (by simp)) value

open scoped Wildcard in
theorem parse_eq_ok_iff_derives_alternatives :
    parse "tag==gw-*;(name==a,id!=\"b\")" = .ok
      (.all [.compare .tag .equal "gw-*",
        .any [.compare .name .equal "a", .compare .id .different "b"]]) := by
  have htokens : tokenize "tag==gw-*;(name==a,id!=\"b\")".toList = .ok
      [(0, .word "tag"), (3, .op .equal), (5, .word "gw-*"), (9, .and), (10, .openParen),
        (11, .word "name"), (15, .op .equal), (17, .word "a"), (18, .or), (19, .word "id"),
        (21, .op .different), (23, .quoted "b"), (26, .closeParen)] := by
    cbv
  have hinner : Derives (.any [.compare .name .equal "a", .compare .id .different "b"])
      [.word "name", .op .equal, .word "a", .or, .word "id", .op .different, .quoted "b"] := by
    have hname := Part.comparison .name (.word "a") (c := .equal)
    have hid := Part.comparison .id (.quoted "b") (c := .different)
    exact .several (.cons (Level.single hname) (.last (Level.single hid)))
  have htag := Part.comparison .tag (.word "gw-*") (c := .equal)
  refine ((parse_eq_ok_iff_derives _ fun ts hts => ?_).1 _).2
    ⟨_, htokens, .single (.several (.cons htag (.last (.parens hinner))))⟩
  rw [htokens] at hts
  cases hts
  refine .of_forall fun t ht value hvalue => ?_
  cases hvalue
  · simp at ht
    obtain rfl | rfl | rfl | rfl | rfl := ht <;> decide +kernel
  · simp at ht
    obtain rfl := ht
    decide +kernel

end StagedRollout.TargetFilter
