import KeywordSieve.Term
import KeywordSieve.Proofs.Folding
import KeywordSieve.Proofs.Trimming

/-!
What normalizing gives, and what it leaves alone. The result is always a term: not empty, in lower
case, without white space at its ends. A text is its own normal form if it is a term without a
quote at either end; wrapping such a text in quotes does not change the term that it denotes.
-/
namespace KeywordSieve.Term

open Text Unicode

structure IsTerm (t : Text) : Prop where
  ne_nil : t ≠ []
  lower : ∀ c ∈ t, IsLower c
  trimmed : Trimmed isBlank t

/-- A term that denotes itself. -/
structure Normal (t : Text) : Prop extends IsTerm t where
  unquoted : Trimmed isQuote t

theorem isQuote_iff {c : Char} : isQuote c = true ↔ c = '"' ∨ c = '\'' := by simp [isQuote]

theorem isBlank_of_isQuote {c : Char} (h : isQuote c = true) : isBlank c = false := by
  rcases isQuote_iff.1 h with rfl | rfl <;> decide

theorem isLower_of_isQuote {c : Char} (h : isQuote c = true) : IsLower c := by
  rcases isQuote_iff.1 h with rfl | rfl <;> decide

/-- Normalizing gives what is left after the three steps, unless nothing is left. -/
theorem normalize_eq_some {f t : Text} :
    normalize f = some t ↔ trim (trimBoth isQuote (trim (fold f))) = t ∧ t ≠ [] := by
  unfold normalize
  split
  · next hn =>
    rw [hn]
    constructor
    · intro h
      cases h
    · intro h
      exact absurd h.1.symm h.2
  · next hn =>
    rw [Option.some.injEq]
    constructor
    · intro h
      exact ⟨h, h ▸ hn⟩
    · exact And.left

/-- Whatever a fragment is, its term is one that can be found in a text. -/
theorem isTerm_of_normalize {f t : Text} (h : normalize f = some t) : IsTerm t := by
  obtain ⟨he, hne⟩ := normalize_eq_some.1 h
  refine ⟨hne, ?_, he ▸ trimBoth_trimmed isBlank _⟩
  intro c hc
  rw [← he] at hc
  have hq := (trimBoth_isInfix isBlank _).subset hc
  have hb := (trimBoth_isInfix isQuote _).subset hq
  exact isLower_of_mem_fold ((trimBoth_isInfix isBlank _).subset hb)

theorem IsTerm.fold_eq {t : Text} (h : IsTerm t) : fold t = t := fold_eq_self h.lower

theorem IsTerm.trim_eq {t : Text} (h : IsTerm t) : trim t = t := trimBoth_eq_self h.trimmed

theorem normalize_of_normal {t : Text} (h : Normal t) : normalize t = some t := by
  apply normalize_eq_some.2
  rw [h.fold_eq, h.trim_eq, trimBoth_eq_self h.unquoted, h.trim_eq]
  exact ⟨rfl, h.ne_nil⟩

/-- No step of normalizing lengthens a text in lower case, so a text that comes out again has
passed every step unchanged. -/
theorem normal_of_normalize {t : Text} (h : normalize t = some t) : Normal t := by
  have ht := isTerm_of_normalize h
  obtain ⟨he, -⟩ := normalize_eq_some.1 h
  rw [ht.fold_eq, ht.trim_eq] at he
  have hlen : t.length ≤ (trimBoth isQuote t).length := by
    have hi := (trimBoth_isInfix isBlank (trimBoth isQuote t)).length_le
    change (trim (trimBoth isQuote t)).length ≤ _ at hi
    rwa [he] at hi
  have hq : trimBoth isQuote t = t := (trimBoth_isInfix isQuote t).eq_of_length_le hlen
  have hu := trimBoth_trimmed isQuote t
  rw [hq] at hu
  exact ⟨ht, hu⟩

theorem trimmed_quoted {q : Char} (hq : isQuote q = true) (t : Text) :
    Trimmed isBlank (q :: t ++ [q]) := by
  constructor
  · intro c hc
    cases hc
    exact isBlank_of_isQuote hq
  · intro c hc
    rw [List.getLast?_concat] at hc
    cases hc
    exact isBlank_of_isQuote hq

theorem trim_quoted {q : Char} (hq : isQuote q = true) (t : Text) :
    trim (q :: t ++ [q]) = q :: t ++ [q] := trimBoth_eq_self (trimmed_quoted hq t)

/-- A quoted term denotes the term. -/
theorem normalize_quoted {q : Char} {t : Text} (hq : isQuote q = true) (h : Normal t) :
    normalize (q :: t ++ [q]) = some t := by
  have hw : ∀ c ∈ [q], isQuote c = true := by
    intro c hc
    rwa [List.mem_singleton.1 hc]
  have hlower : ∀ c ∈ q :: t ++ [q], IsLower c := by
    intro c hc
    rw [List.cons_append, List.mem_cons, List.mem_append, List.mem_singleton] at hc
    rcases hc with rfl | hc | rfl
    · exact isLower_of_isQuote hq
    · exact h.lower c hc
    · exact isLower_of_isQuote hq
  apply normalize_eq_some.2
  rw [fold_eq_self hlower, trim_quoted hq, ← List.singleton_append,
    trimBoth_wrapped hw hw h.unquoted, h.trim_eq]
  exact ⟨rfl, h.ne_nil⟩

end KeywordSieve.Term
