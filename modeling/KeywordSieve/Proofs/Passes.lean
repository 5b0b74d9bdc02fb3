import KeywordSieve.Proofs.NormalForm
import KeywordSieve.Proofs.Reading
import KeywordSieve.Query.Filter

/-!
What the three passes over the tokens find, built up from the end of a query: a construct in front
adds a term or a group, and text in which no construct starts only adds to the plain text. All of
the plain text is read as one, so what a construct is cut out of joins up. Whatever the query, all
that a compiled filter holds has come out of normalizing, and no group of it is empty.
-/
namespace KeywordSieve.Query.Filter

open Text Term Override Token

/-- The findings of the three passes: terms of phrases, groups, and the plain text. -/
structure Yields (t : Text) (phrases : List Signed) (groups : List (List Text)) (text : Text) :
    Prop where
  phrases_eq : (lex t).filterMap phraseTerm? = phrases
  groups_eq : (lex t).filterMap group? = groups
  text_eq : (lex t).flatMap plainText = text

/-- The terms of a text between the constructs. -/
def bareTerms (text : Text) : List Signed := (pieces ',' (fold text)).filterMap pieceTerm?

variable {t after : Text} {phrases : List Signed} {groups : List (List Text)} {text : Text}

theorem Yields.compile_eq (h : Yields t phrases groups text) :
    compile t =
      { includes := select false (phrases ++ bareTerms text)
        excludes := select true (phrases ++ bareTerms text)
        overrides := groups } := by
  simp only [compile, ofTokens, plainTerms, h.phrases_eq, h.groups_eq, h.text_eq, bareTerms]

theorem select_append (mark : Bool) (front back : List Signed) :
    select mark (front ++ back) = select mark front ++ select mark back := by
  simp [select]

theorem filterMap_cons_toList {α β : Type} (f : α → Option β) (a : α) (rest : List α) :
    (a :: rest).filterMap f = (f a).toList ++ rest.filterMap f := by
  rw [List.filterMap_cons]
  cases f a <;> rfl

theorem yields_nil : Yields [] [] [] [] := by
  constructor <;> simp [lex]

theorem Yields.phrase {negated : Bool} {q : Char} {body : Text}
    (hc : IsConstruct after (.phrase negated q body)) (h : Yields after phrases groups text) :
    Yields ((Token.phrase negated q body).source ++ after)
      (((normalize body).map (negated, ·)).toList ++ phrases) groups text := by
  constructor
  · rw [lex_construct hc, filterMap_cons_toList, h.phrases_eq, phraseTerm?]
  · rw [lex_construct hc, List.filterMap_cons, h.groups_eq]
    rfl
  · rw [lex_construct hc, List.flatMap_cons, h.text_eq]
    rfl

theorem Yields.group {opening body : Text} (hc : IsConstruct after (.override opening body))
    (h : Yields after phrases groups text) :
    Yields ((Token.override opening body).source ++ after) phrases
      ((group? (.override opening body)).toList ++ groups) text := by
  constructor
  · rw [lex_construct hc, List.filterMap_cons, h.phrases_eq]
    rfl
  · rw [lex_construct hc, filterMap_cons_toList, h.groups_eq]
  · rw [lex_construct hc, List.flatMap_cons, h.text_eq]
    rfl

/-- A plain character in front is seen by the pass over the plain text only. -/
theorem passes_consPlain (c : Char) (tokens : List Token) :
    (consPlain c tokens).filterMap phraseTerm? = tokens.filterMap phraseTerm? ∧
      (consPlain c tokens).filterMap group? = tokens.filterMap group? ∧
      (consPlain c tokens).flatMap plainText = c :: tokens.flatMap plainText := by
  cases tokens with
  | nil => exact ⟨rfl, rfl, rfl⟩
  | cons token rest =>
    cases token <;> simp [consPlain, phraseTerm?, group?, plainText, List.filterMap_cons]

theorem Yields.inert {front : Text} (hi : Inert after front)
    (h : Yields after phrases groups text) :
    Yields (front ++ after) phrases groups (front ++ text) := by
  induction front with
  | nil => exact h
  | cons c front ih =>
    obtain ⟨hc, hr⟩ := inert_cons.1 hi
    have hy := ih hr
    obtain ⟨hp, hg, ht⟩ := passes_consPlain c (lex (front ++ after))
    constructor
    · rw [List.cons_append, lex_cons hc, hp, hy.phrases_eq]
    · rw [List.cons_append, lex_cons hc, hg, hy.groups_eq]
    · rw [List.cons_append, lex_cons hc, ht, hy.text_eq, List.cons_append]

/-- What holds of every compiled filter. -/
structure WellFormed (f : Filter) : Prop where
  includes : ∀ t ∈ f.includes, IsTerm t
  excludes : ∀ t ∈ f.excludes, IsTerm t
  overrides : ∀ group ∈ f.overrides, group ≠ [] ∧ ∀ t ∈ group, IsTerm t

theorem isTerm_of_mark {mark : Bool} {fragment : Text} {s : Signed}
    (h : (normalize fragment).map (mark, ·) = some s) : IsTerm s.2 := by
  obtain ⟨t, ht, rfl⟩ := Option.map_eq_some_iff.1 h
  exact isTerm_of_normalize ht

theorem isTerm_of_phraseTerm? {token : Token} {s : Signed} (h : phraseTerm? token = some s) :
    IsTerm s.2 := by
  cases token with
  | plain text => cases h
  | override opening body => cases h
  | phrase negated q body =>
    rw [phraseTerm?] at h
    exact isTerm_of_mark h

theorem isTerm_of_pieceTerm? {piece : Text} {s : Signed} (h : pieceTerm? piece = some s) :
    IsTerm s.2 := by
  rw [pieceTerm?] at h
  split at h
  · exact isTerm_of_mark h
  · exact isTerm_of_mark h

theorem wellFormed_group? {token : Token} {group : List Text} (h : group? token = some group) :
    group ≠ [] ∧ ∀ t ∈ group, IsTerm t := by
  cases token with
  | plain text => cases h
  | phrase negated q body => cases h
  | override opening body =>
    simp only [group?] at h
    split at h
    · cases h
    · next hne =>
      cases h
      refine ⟨hne, ?_⟩
      intro t ht
      obtain ⟨element, -, hn⟩ := List.mem_filterMap.1 ht
      exact isTerm_of_normalize hn

theorem mem_select {mark : Bool} {terms : List Signed} {t : Text} (h : t ∈ select mark terms) :
    (mark, t) ∈ terms := by
  obtain ⟨s, hs, rfl⟩ := List.mem_map.1 h
  obtain ⟨hs, hm⟩ := List.mem_filter.1 hs
  rwa [← beq_iff_eq.1 hm]

/-- Tokens of any kind, from a query or not, make a well-formed filter. -/
theorem wellFormed_ofTokens (tokens : List Token) : WellFormed (ofTokens tokens) := by
  have hterms : ∀ s ∈ tokens.filterMap phraseTerm? ++ plainTerms tokens, IsTerm s.2 := by
    intro s hs
    rcases List.mem_append.1 hs with hs | hs
    · obtain ⟨token, -, ht⟩ := List.mem_filterMap.1 hs
      exact isTerm_of_phraseTerm? ht
    · obtain ⟨piece, -, hp⟩ := List.mem_filterMap.1 hs
      exact isTerm_of_pieceTerm? hp
  constructor
  · intro t ht
    exact hterms _ (mem_select ht)
  · intro t ht
    exact hterms _ (mem_select ht)
  · intro group hg
    obtain ⟨token, -, ht⟩ := List.mem_filterMap.1 hg
    exact wellFormed_group? ht

theorem wellFormed_compile? (raw : Option Text) : WellFormed (compile? raw) := by
  cases raw with
  | none => constructor <;> intro t ht <;> cases ht
  | some query => exact wellFormed_ofTokens _

/-- Every term of a compiled filter can be found: it is not empty, folding leaves it alone, and no
white space stands at its ends. A group asks for at least one. -/
theorem terms_compile? (raw : Option Text) :
    (∀ t ∈ (compile? raw).includes ++ (compile? raw).excludes ++ (compile? raw).overrides.flatten,
        t ≠ [] ∧ fold t = t ∧ Trimmed Unicode.isBlank t) ∧
      ∀ group ∈ (compile? raw).overrides, group ≠ [] := by
  have hf := wellFormed_compile? raw
  refine ⟨?_, fun group hg => (hf.overrides group hg).1⟩
  intro t ht
  have hterm : IsTerm t := by
    rw [List.mem_append, List.mem_append] at ht
    rcases ht with (ht | ht) | ht
    · exact hf.includes t ht
    · exact hf.excludes t ht
    · obtain ⟨group, hg, ht⟩ := List.mem_flatten.1 ht
      exact (hf.overrides group hg).2 t ht
  exact ⟨hterm.ne_nil, hterm.fold_eq, hterm.trimmed⟩

/-- A sigma at the end of a quoted term, a term behind a minus sign, and one in a group. -/
example : compile? (some "' ΟΔΟΣ ',- X,except( \"Y \" )") =
    { includes := ["οδος"], excludes := ["x"], overrides := [["y"]] } := by
  decide +kernel

end KeywordSieve.Query.Filter
