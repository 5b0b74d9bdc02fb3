import KeywordSieve.Proofs.Explanation

/-!
How the decision moves with the filter. Which terms are in a list counts, not their order or their
number. A term more to exclude, or a term more in a group, can only drop items; a group more, or one
more among several terms to include, can only keep them. Both are steps between a filter and a
looser one.
-/
namespace KeywordSieve.Query.Filter

open Text Term

variable {f g : Filter} {text : Text}

/-- The second filter excludes no more, its groups ask for no more, and it includes no less. -/
structure Looser (f g : Filter) : Prop where
  excludes : g.excludes ⊆ f.excludes
  overrides : ∀ group ∈ f.overrides, ∃ other ∈ g.overrides, other ⊆ group
  includes : f.includes ⊆ g.includes
  unlimited : f.includes = [] → g.includes = []

structure SameTerms (f g : Filter) : Prop where
  includes : ∀ t, t ∈ f.includes ↔ t ∈ g.includes
  excludes : ∀ t, t ∈ f.excludes ↔ t ∈ g.excludes
  overrides : ∀ group ∈ f.overrides, ∃ other ∈ g.overrides, ∀ t, t ∈ group ↔ t ∈ other
  overrides' : ∀ other ∈ g.overrides, ∃ group ∈ f.overrides, ∀ t, t ∈ group ↔ t ∈ other

/-- What lets an item pass the excludes lets it pass fewer of them. -/
theorem Looser.passes (h : Looser f g)
    (hp : within text f.excludes = [] ∨ ∃ group ∈ f.overrides, Holds text group) :
    within text g.excludes = [] ∨ ∃ group ∈ g.overrides, Holds text group := by
  rcases hp with hnil | ⟨group, hg, hh⟩
  · left
    rw [within_eq_nil] at hnil ⊢
    intro t ht
    exact hnil t (h.excludes ht)
  · obtain ⟨other, ho, hs⟩ := h.overrides group hg
    right
    exact ⟨other, ho, fun t ht => hh t (hs ht)⟩

theorem judge_ne_excluded_iff : (f.judge text).decision ≠ .excluded ↔
    within text f.excludes = [] ∨ ∃ group ∈ f.overrides, Holds text group := by
  rw [ne_eq, (explains_judge f text).excluded]
  push Not
  constructor
  · intro h
    by_cases hw : within text f.excludes = []
    · exact Or.inl hw
    · exact Or.inr (h hw)
  · rintro (hw | hg) hne
    · exact absurd hw hne
    · exact hg

/-- A looser filter keeps all that is kept. -/
theorem Looser.isMatch (h : Looser f g) (hm : (f.judge text).isMatch = true) :
    (g.judge text).isMatch = true := by
  obtain ⟨hp, hi⟩ := isMatch_judge.1 hm
  refine isMatch_judge.2 ⟨h.passes hp, ?_⟩
  rcases hi with hnil | ⟨t, ht, hin⟩
  · exact Or.inl (h.unlimited hnil)
  · exact Or.inr ⟨t, h.includes ht, hin⟩

/-- Filters that are looser than each other decide alike. -/
theorem Looser.antisymm (h : Looser f g) (h' : Looser g f) :
    (f.judge text).decision = (g.judge text).decision := by
  have hx : (f.judge text).decision ≠ .excluded ↔ (g.judge text).decision ≠ .excluded := by
    rw [judge_ne_excluded_iff, judge_ne_excluded_iff]
    exact ⟨h.passes, h'.passes⟩
  have hk : (f.judge text).isMatch = true ↔ (g.judge text).isMatch = true :=
    ⟨h.isMatch, h'.isMatch⟩
  rw [Verdict.isMatch, Verdict.isMatch, beq_iff_eq, beq_iff_eq] at hk
  cases hd : (f.judge text).decision <;> cases hd' : (g.judge text).decision <;> simp_all

theorem SameTerms.symm (h : SameTerms f g) : SameTerms g f where
  includes t := (h.includes t).symm
  excludes t := (h.excludes t).symm
  overrides other ho := by
    obtain ⟨group, hg, ht⟩ := h.overrides' other ho
    exact ⟨group, hg, fun t => (ht t).symm⟩
  overrides' group hg := by
    obtain ⟨other, ho, ht⟩ := h.overrides group hg
    exact ⟨other, ho, fun t => (ht t).symm⟩

/-- Filters with the same terms are looser than each other. -/
theorem SameTerms.looser (h : SameTerms f g) : Looser f g where
  excludes t ht := (h.excludes t).2 ht
  overrides group hg := by
    obtain ⟨other, ho, ht⟩ := h.overrides group hg
    exact ⟨other, ho, fun t hm => (ht t).2 hm⟩
  includes t ht := (h.includes t).1 ht
  unlimited hnil := by
    rw [List.eq_nil_iff_forall_not_mem]
    intro t ht
    have hm := (h.includes t).2 ht
    rw [hnil] at hm
    cases hm

theorem subset_insert {α : Type} (front back : List α) (x : α) :
    front ++ back ⊆ front ++ x :: back :=
  ((List.sublist_cons_self x back).append_left front).subset

variable {front back : List Text} {before after : List (List Text)}

/-- A term less to exclude makes a filter looser. -/
theorem looser_exclude (t : Text) (h : f.excludes = front ++ back) :
    Looser { f with excludes := front ++ t :: back } f where
  excludes := h ▸ subset_insert front back t
  overrides group hg := ⟨group, hg, List.Subset.refl group⟩
  includes := List.Subset.refl f.includes
  unlimited := id

/-- So does a term less in a group. -/
theorem looser_term (t : Text) (h : f.overrides = before ++ (front ++ back) :: after) :
    Looser { f with overrides := before ++ (front ++ t :: back) :: after } f where
  excludes := List.Subset.refl f.excludes
  overrides group hg := by
    rw [h]
    rcases List.mem_append.1 hg with hg | hg
    · exact ⟨group, List.mem_append_left _ hg, List.Subset.refl group⟩
    rcases List.mem_cons.1 hg with rfl | hg
    · exact ⟨front ++ back, by simp, subset_insert front back t⟩
    · exact ⟨group, by simp [hg], List.Subset.refl group⟩
  includes := List.Subset.refl f.includes
  unlimited := id

/-- So does one more group. -/
theorem looser_override (group : List Text) (h : f.overrides = before ++ after) :
    Looser f { f with overrides := before ++ group :: after } where
  excludes := List.Subset.refl f.excludes
  overrides other ho :=
    ⟨other, subset_insert before after group (h ▸ ho), List.Subset.refl other⟩
  includes := List.Subset.refl f.includes
  unlimited := id

/-- To a filter that includes nothing a term to include would be a limit. -/
theorem looser_include (t : Text) (h : f.includes = front ++ back) (hne : f.includes ≠ []) :
    Looser f { f with includes := front ++ t :: back } where
  excludes := List.Subset.refl f.excludes
  overrides group hg := ⟨group, hg, List.Subset.refl group⟩
  includes := h ▸ subset_insert front back t
  unlimited hnil := absurd hnil hne

/-- Order and repetitions do not count for the decision. No item is kept because of a term more to
exclude or a term more in a group, and none is dropped because of a group more or a term more among
those to include. -/
theorem decision_of_change (f : Filter) (s : Subject) :
    (∀ g, SameTerms f g → (g.evaluate s).decision = (f.evaluate s).decision) ∧
      (∀ front back t, f.excludes = front ++ back →
        { f with excludes := front ++ t :: back }.keeps s = true → f.keeps s = true) ∧
      (∀ before front back after t, f.overrides = before ++ (front ++ back) :: after →
        { f with overrides := before ++ (front ++ t :: back) :: after }.keeps s = true →
          f.keeps s = true) ∧
      (∀ before after group, f.overrides = before ++ after → f.keeps s = true →
        { f with overrides := before ++ group :: after }.keeps s = true) ∧
      (∀ front back t, f.includes = front ++ back → f.includes ≠ [] → f.keeps s = true →
        { f with includes := front ++ t :: back }.keeps s = true) := by
  refine ⟨?_, ?_, ?_, ?_, ?_⟩
  · intro g h
    exact h.symm.looser.antisymm h.looser
  · intro front back t h
    exact (looser_exclude t h).isMatch
  · intro before front back after t h
    exact (looser_term t h).isMatch
  · intro before after group h
    exact (looser_override group h).isMatch
  · intro front back t h hne
    exact (looser_include t h hne).isMatch

/-- A first term to include drops what lacks it. -/
example : ({} : Filter).keeps ⟨some "a", none⟩ = true ∧
    ({ includes := ["b"] } : Filter).keeps ⟨some "a", none⟩ = false := by
  decide +kernel

end KeywordSieve.Query.Filter
