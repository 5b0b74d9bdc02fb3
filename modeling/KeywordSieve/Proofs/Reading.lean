import KeywordSieve.Proofs.Constructs

/-!
The readings of a query. A reading cuts a query into constructs and plain text, where plain text
is not cut in two and no construct starts inside it. A query has exactly one reading, the one that
the scan from left to right finds.
-/
namespace KeywordSieve.Query.Token

open Text Term Override

/-- No construct starts in a text that stands in front of `after`. -/
def Inert (after text : Text) : Prop := ∀ p < text.length, ¬ Starts ((text ++ after).drop p)

@[simp] theorem inert_nil (after : Text) : Inert after [] := by
  intro p hp
  cases hp

theorem inert_cons {after rest : Text} {c : Char} :
    Inert after (c :: rest) ↔ ¬ Starts (c :: (rest ++ after)) ∧ Inert after rest := by
  constructor
  · intro h
    refine ⟨h 0 (by simp), ?_⟩
    intro p hp
    exact h (p + 1) (by simpa using hp)
  · rintro ⟨h, hr⟩ p hp
    cases p with
    | zero => exact h
    | succ p => exact hr p (by simpa using hp)

/-- A comma starts nothing. -/
theorem inert_comma (after : Text) : Inert after [','] := by
  refine inert_cons.2 ⟨?_, inert_nil after⟩
  rw [← construct?_eq_none]
  simp [construct?, override?_cons_of_ne (show smallAscii ',' ≠ 'e' by decide), phrase?, isQuote]

/-- The tokens are a way to cut the text that leaves nothing to choose. -/
inductive Reads : Text → List Token → Prop where
  | nil : Reads [] []
  | construct {token : Token} {after : Text} {rest : List Token} :
      IsConstruct after token → Reads after rest → Reads (token.source ++ after) (token :: rest)
  | plain {text after : Text} {rest : List Token} :
      text ≠ [] → Inert after text → (∀ other, rest.head? ≠ some (.plain other)) →
      Reads after rest → Reads (text ++ after) (.plain text :: rest)

theorem IsConstruct.source_ne_nil {token : Token} {after : Text} (h : IsConstruct after token) :
    token.source ≠ [] := by
  cases h <;> simp [source]

theorem lex_construct {token : Token} {after : Text} (h : IsConstruct after token) :
    lex (token.source ++ after) = token :: lex after := by
  have hc := construct?_iff.2 ⟨h, rfl⟩
  obtain ⟨c, rest, hs⟩ := List.exists_cons_of_ne_nil h.source_ne_nil
  rw [hs, List.cons_append] at hc ⊢
  rw [lex]
  split
  · next hf =>
    rw [hc] at hf
    cases hf
    rfl
  · next hf =>
    rw [hc] at hf
    cases hf

theorem lex_cons {c : Char} {rest : Text} (h : ¬ Starts (c :: rest)) :
    lex (c :: rest) = consPlain c (lex rest) := by
  rw [lex]
  split
  · next hf =>
    rw [construct?_eq_none.2 h] at hf
    cases hf
  · rfl

/-- Inert text goes into the plain token in front of what follows it. -/
theorem lex_append {text after : Text} (h : Inert after text) :
    lex (text ++ after) = text.foldr consPlain (lex after) := by
  induction text with
  | nil => rfl
  | cons c rest ih =>
    obtain ⟨hc, hr⟩ := inert_cons.1 h
    rw [List.cons_append, lex_cons hc, ih hr, List.foldr_cons]

theorem foldr_consPlain {text : Text} {tokens : List Token} (hne : text ≠ [])
    (h : ∀ other, tokens.head? ≠ some (.plain other)) :
    text.foldr consPlain tokens = .plain text :: tokens := by
  induction text with
  | nil => exact absurd rfl hne
  | cons c rest ih =>
    cases rest with
    | nil =>
      cases tokens with
      | nil => rfl
      | cons token tokens =>
        cases token with
        | plain text => exact absurd rfl (h text)
        | phrase => rfl
        | override => rfl
    | cons d rest => rw [List.foldr_cons, ih (by simp), consPlain]

/-- A query has no other reading than the one that is found. -/
theorem Reads.lex_eq {t : Text} {tokens : List Token} (h : Reads t tokens) : lex t = tokens := by
  induction h with
  | nil => simp [lex]
  | construct hc _ ih => rw [lex_construct hc, ih]
  | plain hne hi hh _ ih => rw [lex_append hi, ih, foldr_consPlain hne hh]

/-- A character in front of a reading that does not begin with plain text. -/
theorem Reads.single {c : Char} {t : Text} {tokens : List Token} (hc : ¬ Starts (c :: t))
    (hh : ∀ other, tokens.head? ≠ some (.plain other)) (h : Reads t tokens) :
    Reads (c :: t) (.plain [c] :: tokens) :=
  @Reads.plain [c] t tokens (List.cons_ne_nil c []) (inert_cons.2 ⟨hc, inert_nil t⟩) hh h

theorem Reads.consPlain {c : Char} {t : Text} {tokens : List Token} (hc : ¬ Starts (c :: t))
    (h : Reads t tokens) : Reads (c :: t) (consPlain c tokens) := by
  cases h with
  | nil => exact .single hc (by simp) .nil
  | construct hk hr =>
    have hr := Reads.construct hk hr
    cases hk with
    | phrase => exact .single hc (by simp) hr
    | override => exact .single hc (by simp) hr
  | @plain text after rest hne hi hh hr =>
    exact @Reads.plain (c :: text) after rest (List.cons_ne_nil c text) (inert_cons.2 ⟨hc, hi⟩) hh hr

/-- What the scan finds is a reading. -/
theorem reads_lex (t : Text) : Reads t (lex t) := by
  induction hn : t.length using Nat.strongRecOn generalizing t with
  | ind n ih =>
    cases t with
    | nil =>
      rw [lex]
      exact .nil
    | cons c rest =>
      by_cases hs : Starts (c :: rest)
      · obtain ⟨token, after, hk, he⟩ := hs
        have hlen : after.length < n := by
          have := construct?_length (construct?_iff.2 ⟨hk, he⟩)
          omega
        rw [he, lex_construct hk]
        exact .construct hk (ih _ hlen after rfl)
      · have hlen : rest.length < n := by
          rw [← hn]
          exact Nat.lt_succ_self _
        rw [lex_cons hs]
        exact (ih _ hlen rest rfl).consPlain hs

/-- Nothing of a query is lost, doubled or moved. -/
theorem Reads.flatMap_source {t : Text} {tokens : List Token} (h : Reads t tokens) :
    tokens.flatMap source = t := by
  induction h with
  | nil => rfl
  | construct _ _ ih => rw [List.flatMap_cons, ih]
  | plain _ _ _ _ ih => rw [List.flatMap_cons, ih, source]

end KeywordSieve.Query.Token
