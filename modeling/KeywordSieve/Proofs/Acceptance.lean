import KeywordSieve.Proofs.Explanation
import KeywordSieve.Proofs.Passes

/-!
When a query keeps every item. The items to look at are the excluded terms themselves: a term that
is a title, with no summary, is searched with one space behind it, and as no term ends in a space,
all that is found there stands in the term. An item without any text has no term at all.
-/
namespace KeywordSieve.Query.Filter

open Text Term Unicode

variable {t u : Text}

/-- A space at the end of a text is no part of a term in it. -/
theorem infix_of_infix_space (hu : Trimmed isBlank u) (h : u <:+: t ++ [' ']) : u <:+: t := by
  rcases List.infix_concat_iff.1 h with hs | hi
  · rcases List.eq_nil_or_concat u with hn | ⟨front, c, he⟩
    · rw [hn]
      exact List.nil_infix
    · have hc : c = ' ' := by
        rw [he, List.concat_eq_append] at hs
        have hl := hs.getLast (List.concat_ne_nil c front)
        simpa using hl
      have hb := hu.last c (by simp [he])
      rw [hc] at hb
      exact absurd hb (by decide)
  · exact hi

/-- A title in lower case, without a summary. -/
theorem searchText_title (h : ∀ c ∈ t, IsLower c) : searchText (some t) (some []) = t ++ [' '] := by
  apply fold_eq_self
  intro c hc
  rcases List.mem_append.1 hc with hc | hc
  · exact h c hc
  · rw [List.mem_singleton.1 hc]
    decide

theorem holds_of_holds_space {group : List Text} (hg : ∀ u ∈ group, IsTerm u)
    (h : Holds (t ++ [' ']) group) : Holds t group := by
  intro u hu
  exact infix_of_infix_space (hg u hu).trimmed (h u hu)

/-- A group that holds of a text holds of each text that has the former in it. -/
theorem Holds.mono {text : Text} {group : List Text} (h : Holds t group) (hi : t <:+: text) :
    Holds text group := by
  intro u hu
  exact (h u hu).trans hi

variable {f : Filter}

/-- An item without any text is dropped as soon as there is something to look for. -/
theorem not_keeps_empty (hf : WellFormed f) (hne : f.includes ≠ []) :
    f.keeps ⟨some [], some []⟩ = false := by
  apply Bool.eq_false_iff.2
  intro hk
  rcases (isMatch_judge.1 hk).2 with hnil | ⟨u, hu, hi⟩
  · exact hne hnil
  · have ht := hf.includes u hu
    rw [searchText_title (t := []) (by simp)] at hi
    exact ht.ne_nil (List.infix_nil.1 (infix_of_infix_space ht.trimmed hi))

/-- What is excluded as a title is kept only through a group that holds within it. -/
theorem holds_of_keeps_title (hf : WellFormed f) (ht : t ∈ f.excludes)
    (hk : f.keeps ⟨some t, some []⟩ = true) : ∃ group ∈ f.overrides, Holds t group := by
  have hm := (isMatch_judge.1 hk).1
  rw [searchText_title (hf.excludes t ht).lower] at hm
  rcases hm with hnil | ⟨group, hg, hh⟩
  · have hi : t <:+: t ++ [' '] := List.infix_append_left
    exact absurd hi (within_eq_nil.1 hnil t ht)
  · exact ⟨group, hg, holds_of_holds_space (hf.overrides group hg).2 hh⟩

/-- Where an excluded term stands, all that stands in the term stands as well. -/
theorem keeps_of_covered (hi : f.includes = [])
    (hc : ∀ t ∈ f.excludes, ∃ group ∈ f.overrides, Holds t group) (s : Subject) :
    f.keeps s = true := by
  apply isMatch_judge.2
  refine ⟨?_, Or.inl hi⟩
  by_cases hw : within (searchText s.title s.summary) f.excludes = []
  · exact Or.inl hw
  · right
    rw [within_eq_nil] at hw
    push Not at hw
    obtain ⟨t, ht, hin⟩ := hw
    obtain ⟨group, hg, hh⟩ := hc t ht
    exact ⟨group, hg, hh.mono hin⟩

/-- A query keeps every item if and only if it includes nothing and each term that it excludes has
all terms of some group within it. So does an empty filter, and a term to include drops an item. -/
theorem keeps_all_iff (raw : Option Text) :
    ((∀ title summary : Text, (compile? raw).keeps ⟨some title, some summary⟩ = true) ↔
        (compile? raw).includes = [] ∧
          ∀ t ∈ (compile? raw).excludes, ∃ group ∈ (compile? raw).overrides, ∀ u ∈ group, u <:+: t) ∧
      ((compile? raw).isEmpty = true → ∀ s, (compile? raw).keeps s = true) ∧
      ((compile? raw).includes ≠ [] →
        ∃ title summary : Text, (compile? raw).keeps ⟨some title, some summary⟩ = false) := by
  have hf := wellFormed_compile? raw
  refine ⟨⟨?_, ?_⟩, ?_, ?_⟩
  · intro hall
    constructor
    · by_contra hne
      have hk := hall [] []
      rw [not_keeps_empty hf hne] at hk
      cases hk
    · intro t ht
      exact holds_of_keeps_title hf ht (hall t [])
  · rintro ⟨hi, hc⟩ title summary
    exact keeps_of_covered hi hc _
  · intro he
    simp only [isEmpty, Bool.and_eq_true, List.isEmpty_iff] at he
    apply keeps_of_covered he.1.1
    rw [he.1.2]
    intro t ht
    cases ht
  · intro hne
    exact ⟨[], [], not_keeps_empty hf hne⟩

end KeywordSieve.Query.Filter
