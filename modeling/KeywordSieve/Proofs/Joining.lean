import KeywordSieve.Proofs.Barriers
import KeywordSieve.Proofs.Passes

/-!
Queries put together at a comma. Text without quotes and closing parentheses closes nothing that a
query leaves open, so behind a query, whatever it ends in, such text adds its bare terms and changes
nothing else. An empty pair of quotes in front of a query adds nothing either, unless the same quote
follows in it: then the second quote of the pair opens a phrase, which begins with the comma.
-/
namespace KeywordSieve.Query.Override

open Text Term

/-- A body only looks for quotes in what stands behind it. -/
theorem IsBody.congr {after after' body : Text} (h : IsBody after body)
    (hs : ∀ q ∈ after', isQuote q = true → q ∈ after) : IsBody after' body := by
  induction h with
  | nil => exact .nil
  | run hq hi _ ih => exact .run hq hi ih
  | @lone q rest hq hn _ ih =>
    refine .lone hq ?_ ih
    intro hm
    rcases List.mem_append.1 hm with hm | hm
    · exact hn (List.mem_append_left after hm)
    · exact hn (List.mem_append_right rest (hs q hm hq))
  | other hq hc _ ih => exact .other hq hc ih

end KeywordSieve.Query.Override

namespace KeywordSieve.Query.Token

open Text Term Override

/-- No construct ends in the text: there is neither a quote nor a closing parenthesis in it. -/
def ClosesNothing (s : Text) : Prop := ∀ c ∈ s, isQuote c = false ∧ c ≠ ')'

instance (s : Text) : Decidable (ClosesNothing s) := List.decidableBAll _ s

variable {s t text after : Text} {token : Token}

theorem IsConstruct.source_ends (h : IsConstruct after token) :
    ∃ front c, token.source = front ++ [c] ∧ (isQuote c = true ∨ c = ')') := by
  cases h with
  | phrase hq => exact ⟨_, _, rfl, Or.inl hq⟩
  | override => exact ⟨_, _, rfl, Or.inr rfl⟩

theorem IsConstruct.congr {after' : Text} (h : IsConstruct after token)
    (hs : ∀ q ∈ after', isQuote q = true → q ∈ after) : IsConstruct after' token := by
  cases h with
  | phrase hq hb hne => exact .phrase hq hb hne
  | override ho hb =>
    refine .override ho (hb.congr ?_)
    intro q hm hq
    rcases List.mem_cons.1 hm with rfl | hm
    · exact List.mem_cons_self
    · exact List.mem_cons_of_mem _ (hs q hm hq)

theorem isConstruct_append_iff (hs : ClosesNothing s) :
    IsConstruct (after ++ s) token ↔ IsConstruct after token := by
  constructor
  · intro h
    exact h.congr (fun q hm _ => List.mem_append_left s hm)
  · intro h
    apply h.congr
    intro q hm hq
    rcases List.mem_append.1 hm with hm | hm
    · exact hm
    · rw [(hs q hm).1] at hq
      cases hq

/-- A construct does not reach into text in which nothing ends. -/
theorem IsConstruct.within (hs : ClosesNothing s) (h : IsConstruct after token)
    (he : t ++ s = token.source ++ after) :
    ∃ rest, t = token.source ++ rest ∧ after = rest ++ s := by
  rcases List.append_eq_append_iff.1 he with ⟨reach, hsource, hs'⟩ | ⟨rest, ht, hafter⟩
  · rcases List.eq_nil_or_concat reach with rfl | ⟨front, d, rfl⟩
    · exact ⟨[], by simpa using hsource.symm, by simpa using hs'.symm⟩
    · -- the last character of the construct would be one of `s`
      obtain ⟨front', c, hc, hends⟩ := h.source_ends
      rw [hc, List.concat_eq_append, ← List.append_assoc] at hsource
      have hcd : c = d := List.singleton_inj.1 (List.append_inj' hsource rfl).2
      obtain ⟨hq, hp⟩ := hs c (by simp [hs', hcd])
      rcases hends with hends | hends
      · rw [hends] at hq
        cases hq
      · exact absurd hends hp
  · exact ⟨rest, ht, hafter⟩

/-- Text in which nothing closes does not complete what stands in front of it. -/
theorem starts_append_iff (hs : ClosesNothing s) : Starts (t ++ s) ↔ Starts t := by
  constructor
  · rintro ⟨token, after, hc, he⟩
    obtain ⟨rest, rfl, rfl⟩ := hc.within hs he
    exact ⟨token, rest, (isConstruct_append_iff hs).1 hc, rfl⟩
  · rintro ⟨token, after, hc, rfl⟩
    exact ⟨token, after ++ s, (isConstruct_append_iff hs).2 hc, by rw [List.append_assoc]⟩

theorem not_starts_nil : ¬ Starts [] := by
  rw [← construct?_eq_none]
  rfl

theorem Inert.append (hs : ClosesNothing s) (h : Inert after text) : Inert (after ++ s) text := by
  intro p hp
  have hle : p ≤ (text ++ after).length := by
    rw [List.length_append]
    omega
  rw [← List.append_assoc, List.drop_append_of_le_length hle, starts_append_iff hs]
  exact h p hp

/-- No construct starts in a text in which none ends. -/
theorem inert_of_closesNothing (hs : ClosesNothing s) : Inert [] s := by
  intro p _
  have hd : ClosesNothing (s.drop p) := fun c hc => hs c (List.mem_of_mem_drop hc)
  rw [List.append_nil, ← List.nil_append (s.drop p), starts_append_iff hd]
  exact not_starts_nil

variable {q : Char} {rest : Text}

/-- A quote starts a phrase if another one follows it, with something between the two. -/
theorem starts_quote_iff (hq : isQuote q = true) :
    Starts (q :: rest) ↔ ∃ body after, q ∉ body ∧ body ≠ [] ∧ rest = body ++ q :: after := by
  have hc : construct? (q :: rest) = phrase? false (q :: rest) := @construct?_phrase false q rest hq
  constructor
  · rintro ⟨token, after, hs⟩
    have hf := construct?_iff.2 hs
    rw [hc] at hf
    obtain ⟨q', body, -, hb, hne, -, he⟩ := phrase?_iff.1 hf
    cases he
    exact ⟨body, after, hb, hne, rfl⟩
  · rintro ⟨body, after, hb, hne, rfl⟩
    exact ⟨.phrase false q body, after, .phrase hq hb hne, by simp [source]⟩

theorem not_starts_pair (hq : isQuote q = true) (rest : Text) : ¬ Starts (q :: q :: rest) := by
  rw [starts_quote_iff hq]
  rintro ⟨body, after, hb, hne, he⟩
  obtain ⟨c, body, rfl⟩ := List.exists_cons_of_ne_nil hne
  cases he
  exact hb (by simp)

/-- An empty pair of quotes and a comma are plain text if no such quote stands behind them. -/
theorem inert_pair (hq : isQuote q = true) (hn : q ∉ rest) : Inert rest [q, q, ','] := by
  have hsecond : ¬ Starts (q :: ',' :: rest) := by
    rw [starts_quote_iff hq]
    rintro ⟨body, after, -, -, he⟩
    have hm : q ∈ ',' :: rest := by simp [he]
    exact List.not_mem_cons_of_ne_of_not_mem (ne_comma_of_isQuote hq) hn hm
  exact inert_cons.2 ⟨not_starts_pair hq _, inert_cons.2 ⟨hsecond, inert_comma rest⟩⟩

/-- If the quote occurs again, the second of the pair opens a phrase that ends there. -/
theorem lex_pair_of_mem {front : Text} (hq : isQuote q = true) (hn : q ∉ front) :
    lex (q :: q :: ',' :: (front ++ q :: rest)) =
      .plain [q] :: .phrase false q (',' :: front) :: lex rest := by
  have hcomma : q ∉ ',' :: front :=
    List.not_mem_cons_of_ne_of_not_mem (ne_comma_of_isQuote hq) hn
  have hc : IsConstruct rest (.phrase false q (',' :: front)) := .phrase hq hcomma (by simp)
  have hl := lex_construct hc
  have hs : (phrase false q (',' :: front)).source ++ rest = q :: ',' :: (front ++ q :: rest) := by
    simp [source]
  rw [hs] at hl
  rw [lex_cons (not_starts_pair hq _), hl]
  rfl

theorem exists_consPlain_eq (c : Char) (tokens : List Token) :
    ∃ text rest, consPlain c tokens = .plain (c :: text) :: rest := by
  cases tokens with
  | nil => exact ⟨[], [], rfl⟩
  | cons token rest =>
    cases token with
    | plain text => exact ⟨text, rest, rfl⟩
    | phrase => exact ⟨[], _, rfl⟩
    | override => exact ⟨[], _, rfl⟩

end KeywordSieve.Query.Token

namespace KeywordSieve.Query.Filter

open Text Term Unicode Token

/-- Behind a query, text in which nothing ends is plain text, and the rest is read as before. -/
theorem yields_append {s t : Text} {tokens : List Token} (hs : ClosesNothing s)
    (h : Reads t tokens) :
    Yields (t ++ s) (tokens.filterMap phraseTerm?) (tokens.filterMap group?)
      (tokens.flatMap plainText ++ s) := by
  induction h with
  | nil =>
    have hy := yields_nil.inert (inert_of_closesNothing hs)
    rwa [List.append_nil] at hy
  | @construct token after rest hc _ ih =>
    rw [List.append_assoc, filterMap_cons_toList, filterMap_cons_toList, List.flatMap_cons]
    have hc' := (isConstruct_append_iff hs).2 hc
    cases hc with
    | phrase => exact ih.phrase hc'
    | override => exact ih.group hc'
  | @plain text after rest _ hi _ _ ih =>
    rw [List.append_assoc, filterMap_cons_toList, filterMap_cons_toList, List.flatMap_cons,
      List.append_assoc]
    exact ih.inert (hi.append hs)

/-- The bare terms of a text are those on either side of a comma: no sigma looks across it. -/
theorem bareTerms_append_comma (front back : Text) :
    bareTerms (front ++ ',' :: back) = bareTerms front ++ bareTerms back := by
  rw [bareTerms, fold_append_cons isBarrier_comma, pieces_append_separator, List.filterMap_append]
  rfl

/-- Bare terms behind a query are appended to its own, and its groups stay as they are, whatever
the query leaves open. -/
theorem compile_append_bare (b a : Text) (h : ClosesNothing a) :
    compile (b ++ ',' :: a) =
      { includes := (compile b).includes ++ (compile a).includes
        excludes := (compile b).excludes ++ (compile a).excludes
        overrides := (compile b).overrides } := by
  have hcomma : ClosesNothing (',' :: a) := List.forall_mem_cons.2 ⟨by decide, h⟩
  have hjoined := yields_append hcomma (reads_lex b)
  have hb : Yields b _ _ _ := ⟨rfl, rfl, rfl⟩
  have ha := yields_nil.inert (inert_of_closesNothing h)
  rw [List.append_nil] at ha
  rw [hjoined.compile_eq, hb.compile_eq, ha.compile_eq, bareTerms_append_comma]
  simp only [select_append, List.nil_append, List.append_assoc]

def leftOpen : Text := "-\"p\",except('b)' ΟΣ"

theorem compile_leftOpen :
    ClosesNothing "-ΑΣ,except(q" ∧ compile (leftOpen ++ ',' :: "-ΑΣ,except(q") =
      { includes := ["b)", "except( ος", "except(q"]
        excludes := ["p", "ας"] } :=
  ⟨by decide, (compile_append_bare leftOpen "-ΑΣ,except(q" (by decide)).trans (by decide +kernel)⟩

/-- Quotes alone are no bare term. -/
theorem bareTerms_pair {q : Char} (hq : isQuote q = true) : bareTerms [q, q] = [] := by
  rcases isQuote_iff.1 hq with rfl | rfl <;> decide +kernel

/-- A fragment that begins with a comma denotes a term that does. -/
theorem normalize_comma (t : Text) : ∃ u, normalize (',' :: t) = some (',' :: u) := by
  have hf : fold (',' :: t) = ',' :: fold t := fold_append_cons isBarrier_comma [] t
  obtain ⟨u, hu⟩ := trimBoth_cons (show isBlank ',' = false by decide) (fold t)
  obtain ⟨v, hv⟩ := trimBoth_cons (show isQuote ',' = false by decide) u
  obtain ⟨w, hw⟩ := trimBoth_cons (show isBlank ',' = false by decide) v
  refine ⟨w, normalize_eq_some.2 ⟨?_, by simp⟩⟩
  rw [hf, trim, trim, hu, hv, hw]

/-- An empty pair of quotes adds nothing to the query behind it as long as the quote does not occur
there, which is exactly when the pair and the comma are plain text. Otherwise the first term to
include is one that begins with the comma. -/
theorem compile_pair {q : Char} (hq : isQuote q = true) (t : Text) :
    (lex (q :: q :: ',' :: t) = [q, q, ','].foldr consPlain (lex t) ↔ q ∉ t) ∧
      (q ∉ t → compile (q :: q :: ',' :: t) = compile t) ∧
      (q ∈ t → ∃ u, (compile (q :: q :: ',' :: t)).includes.head? = some (',' :: u)) := by
  refine ⟨⟨?_, fun hn => lex_append (inert_pair hq hn)⟩, ?_, ?_⟩
  · intro he hm
    obtain ⟨front, rest, rfl, hn⟩ := List.eq_append_cons_of_mem hm
    obtain ⟨text, tokens, hp⟩ := exists_consPlain_eq ',' (lex (front ++ q :: rest))
    rw [lex_pair_of_mem hq hn, List.foldr_cons, List.foldr_cons, List.foldr_cons, List.foldr_nil,
      hp] at he
    simp [consPlain] at he
  · intro hn
    have ht : Yields t _ _ _ := ⟨rfl, rfl, rfl⟩
    have hjoined : Yields (q :: q :: ',' :: t) _ _ ([q, q] ++ ',' :: (lex t).flatMap plainText) :=
      ht.inert (inert_pair hq hn)
    rw [hjoined.compile_eq, ht.compile_eq, bareTerms_append_comma, bareTerms_pair hq,
      List.nil_append]
  · intro hm
    obtain ⟨front, rest, rfl, hn⟩ := List.eq_append_cons_of_mem hm
    obtain ⟨u, hu⟩ := normalize_comma front
    refine ⟨u, ?_⟩
    simp [compile, ofTokens, lex_pair_of_mem hq hn, filterMap_cons_toList, phraseTerm?, hu, select]

/-- The single quotes of the query behind it leave an empty pair of double quotes alone. -/
theorem compile_pair_single :
    isQuote '"' = true ∧ '"' ∉ ("x,-'a)',except(b" : Text) ∧
      compile "\"\",x,-'a)',except(b" = compile "x,-'a)',except(b" :=
  ⟨by decide, by decide, (compile_pair (by decide) "x,-'a)',except(b").2.1 (by decide)⟩

/-- A comma that nobody asked for is looked for if a quoted term stands behind an empty pair. -/
theorem compile_pair_quoted :
    compile "\"\",\"a\"" = { includes := [",", "a"] } ∧
      compile "\"\",\"a\"" ≠ compile "\"a\"" := by
  constructor <;> decide +kernel

end KeywordSieve.Query.Filter
