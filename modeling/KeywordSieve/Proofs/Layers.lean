import KeywordSieve.Proofs.NormalForm

/-!
Terms that are normalized once more. Normalizing takes quotes off once, and white space before and
after that. White space between two quotes protects the inner one from the first pass: it is gone
afterwards, and the quote stands at the end of the term. Exactly then a second pass finds something
left to do.
-/
namespace KeywordSieve.Text

variable {p : Char → Bool} {t s : Text}

theorem head?_of_isPrefix (h : s <+: t) (hne : s ≠ []) : s.head? = t.head? := by
  obtain ⟨rest, rfl⟩ := h
  obtain ⟨c, more, rfl⟩ := List.exists_cons_of_ne_nil hne
  rfl

/-- If trimming leaves something, it begins with the first character without `p`. -/
theorem head?_trimBoth (hne : trimBoth p t ≠ []) : (trimBoth p t).head? = (t.dropWhile p).head? :=
  head?_of_isPrefix (trimBoth_isPrefix p t) hne

theorem trimBoth_reverse (p : Char → Bool) (t : Text) :
    trimBoth p t.reverse = (trimBoth p t).reverse := by
  obtain ⟨left, right, hl, hr, he⟩ := exists_surround p t
  have ht := trimBoth_trimmed p t
  have hrev : Trimmed p (trimBoth p t).reverse := by
    constructor
    · intro c hc
      exact ht.last c (by rwa [List.head?_reverse] at hc)
    · intro c hc
      exact ht.head c (by rwa [List.getLast?_reverse] at hc)
  have hl' : ∀ c ∈ left.reverse, p c = true := fun c hc => hl c (List.mem_reverse.1 hc)
  have hr' : ∀ c ∈ right.reverse, p c = true := fun c hc => hr c (List.mem_reverse.1 hc)
  calc trimBoth p t.reverse
      = trimBoth p (right.reverse ++ (trimBoth p t).reverse ++ left.reverse) := by
        conv => lhs; rw [he]
        rw [List.reverse_append, List.reverse_append, List.append_assoc]
    _ = (trimBoth p t).reverse := trimBoth_wrapped hr' hl' hrev

end KeywordSieve.Text

namespace KeywordSieve.Term

open Text Unicode

variable {f n : Text}

/-- Whether a quote stands next once the quotes at the head of a text are gone, and then the white
space behind them. -/
def hidesQuote (t : Text) : Bool := ((t.dropWhile isQuote).dropWhile isBlank).head?.any isQuote

/-- The text without its outer quotes, and then without outer white space. -/
def unwrap (t : Text) : Text := trim (trimBoth isQuote t)

theorem unwrap_reverse (t : Text) : unwrap t.reverse = (unwrap t).reverse := by
  rw [unwrap, trimBoth_reverse, trim, trimBoth_reverse, unwrap, trim]

theorem head?_unwrap {t : Text} (hne : unwrap t ≠ []) :
    (unwrap t).head? = ((t.dropWhile isQuote).dropWhile isBlank).head? := by
  have hinner : (trimBoth isQuote t).dropWhile isBlank ≠ [] := by
    intro hn
    have hp := trimBoth_isPrefix isBlank (trimBoth isQuote t)
    rw [hn] at hp
    exact hne (List.prefix_nil.1 hp)
  obtain ⟨rest, hr⟩ := trimBoth_isPrefix isQuote t
  rw [unwrap, trim, head?_trimBoth hne, ← hr, List.dropWhile_append, if_neg (by simpa using hinner)]
  exact head?_of_isPrefix (List.prefix_append _ rest) hinner

/-- What is left begins with a quote exactly if the text hides one at its head. -/
theorem hidesQuote_iff {t : Text} (hne : unwrap t ≠ []) :
    hidesQuote t = false ↔ ∀ c ∈ (unwrap t).head?, isQuote c = false := by
  rw [head?_unwrap hne, hidesQuote]
  cases ((t.dropWhile isQuote).dropWhile isBlank).head? <;> simp

/-- Feeding a term back. It is in lower case and trimmed, and it denotes itself exactly if no quote
stands at an end of it. A quote stands at its head exactly if the fragment, folded and trimmed, hides
one there, and likewise at its end, read from behind. -/
theorem normalize_again (h : normalize f = some n) :
    (n ≠ [] ∧ fold n = n ∧ Trimmed isBlank n) ∧
      (normalize n = some n ↔ Trimmed isQuote n) ∧
      ((∀ c ∈ n.head?, isQuote c = false) ↔ hidesQuote (trim (fold f)) = false) ∧
      ((∀ c ∈ n.getLast?, isQuote c = false) ↔ hidesQuote (trim (fold f)).reverse = false) := by
  have ht := isTerm_of_normalize h
  obtain ⟨he, hne⟩ := normalize_eq_some.1 h
  change unwrap (trim (fold f)) = n at he
  refine ⟨⟨ht.ne_nil, ht.fold_eq, ht.trimmed⟩, ?_, ?_, ?_⟩
  · constructor
    · intro hn
      exact (normal_of_normalize hn).unquoted
    · intro hn
      exact normalize_of_normal ⟨ht, hn⟩
  · have hhead := hidesQuote_iff (t := trim (fold f)) (by rwa [he])
    rw [he] at hhead
    exact hhead.symm
  · have hlast := hidesQuote_iff (t := (trim (fold f)).reverse) (by simpa [unwrap_reverse, he])
    rw [unwrap_reverse, he, List.head?_reverse] at hlast
    exact hlast.symm

/-- Quotes inside a term, and white space inside a single layer of quotes, do no harm. -/
theorem normalize_again_spaced :
    normalize " \"' Say 'Hi' now \" " = some "say 'hi' now".toList ∧
      normalize "say 'hi' now" = some "say 'hi' now".toList := by
  have h : normalize " \"' Say 'Hi' now \" " = some "say 'hi' now".toList := by decide +kernel
  obtain ⟨-, hagain, hhead, hlast⟩ := normalize_again h
  exact ⟨h, hagain.2 ⟨hhead.2 (by decide +kernel), hlast.2 (by decide +kernel)⟩⟩

/-- A second layer of quotes inside white space is left on the term. -/
theorem normalize_layered :
    normalize "\" 'x' \"" = some "'x'".toList ∧ normalize "'x'" = some "x".toList := by
  constructor <;> decide +kernel

end KeywordSieve.Term
