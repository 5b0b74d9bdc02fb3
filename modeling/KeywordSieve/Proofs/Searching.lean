import KeywordSieve.Proofs.Barriers

/-!
Terms in an item. The space between title and summary is a barrier, so each of the two is folded as
if it stood alone. What is found in an item is found in one of them or reaches over the space, and
only a term that holds a space can do that.
-/
namespace KeywordSieve.Text

variable {c : Char} {t front back : Text}

/-- What stands in a text stands in front of one of its characters, behind it, or around it. -/
theorem infix_append_cons_iff : t <:+: front ++ c :: back ↔
    t <:+: front ∨ t <:+: back ∨ ∃ x y, t = x ++ c :: y ∧ x <:+ front ∧ y <+: back := by
  constructor
  · intro h
    rcases List.infix_append_iff.1 h with hf | hb | ⟨x, u, rfl, hx, hu⟩
    · exact Or.inl hf
    · rcases List.infix_cons_iff.1 hb with hp | hi
      · rcases List.prefix_cons_iff.1 hp with rfl | ⟨y, rfl, hy⟩
        · exact Or.inl List.nil_infix
        · exact Or.inr (Or.inr ⟨[], y, rfl, List.nil_suffix, hy⟩)
      · exact Or.inr (Or.inl hi)
    · rcases List.prefix_cons_iff.1 hu with rfl | ⟨y, rfl, hy⟩
      · exact Or.inl (by simpa using hx.isInfix)
      · exact Or.inr (Or.inr ⟨x, y, rfl, hx, hy⟩)
  · rintro (hf | hb | ⟨x, y, rfl, ⟨u, rfl⟩, v, rfl⟩)
    · exact hf.trans List.infix_append_left
    · exact hb.trans ((List.infix_cons List.infix_rfl).trans List.infix_append_right)
    · exact ⟨u, v, by simp⟩

end KeywordSieve.Text

namespace KeywordSieve.Term

open Text Unicode

/-- Title and summary of an item are folded one by one. A term without a space is found in the item
if and only if it is found in one of the two. Any other term may also end the title, go on with the
space and begin the summary. -/
theorem foundIn_searchText (title summary : Option Text) :
    searchText title summary = fold (title.getD []) ++ ' ' :: fold (summary.getD []) ∧
      (∀ term, ' ' ∉ term → (foundIn (searchText title summary) term = true ↔
        foundIn (fold (title.getD [])) term = true ∨
          foundIn (fold (summary.getD [])) term = true)) ∧
      ∀ term, foundIn (searchText title summary) term = true ↔
        foundIn (fold (title.getD [])) term = true ∨
          foundIn (fold (summary.getD [])) term = true ∨
            ∃ x y, term = x ++ ' ' :: y ∧ x <:+ fold (title.getD []) ∧
              y <+: fold (summary.getD []) := by
  have hfound : ∀ term, foundIn (searchText title summary) term = true ↔
      foundIn (fold (title.getD [])) term = true ∨ foundIn (fold (summary.getD [])) term = true ∨
        ∃ x y, term = x ++ ' ' :: y ∧ x <:+ fold (title.getD []) ∧
          y <+: fold (summary.getD []) := by
    intro term
    simp only [foundIn_iff, searchText_eq, infix_append_cons_iff]
  refine ⟨searchText_eq title summary, ?_, hfound⟩
  intro term hterm
  rw [hfound]
  constructor
  · rintro (htitle | hsummary | ⟨x, y, rfl, -⟩)
    · exact Or.inl htitle
    · exact Or.inr hsummary
    · exact absurd (by simp) hterm
  · rintro (htitle | hsummary)
    · exact Or.inl htitle
    · exact Or.inr (Or.inl hsummary)

/-- The last sigma of a title is a final one, whatever letter the summary begins with, and a term may
reach from the one to the other. -/
theorem foundIn_searchText_sigma :
    ' ' ∉ ("οδος" : Text) ∧ foundIn (searchText (some "ΟΔΟΣ") (some "ΣΑ")) "οδος" = true ∧
      foundIn (searchText (some "ΟΔΟΣ") (some "ΣΑ")) "ς σ" = true := by
  obtain ⟨-, hword, hterm⟩ := foundIn_searchText (some "ΟΔΟΣ") (some "ΣΑ")
  refine ⟨by decide, (hword "οδος" (by decide)).2 (Or.inl (by decide +kernel)), ?_⟩
  exact (hterm "ς σ").2 (Or.inr (Or.inr ⟨"ς", "σ", rfl, by decide +kernel, by decide +kernel⟩))

end KeywordSieve.Term
