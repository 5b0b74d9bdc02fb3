import Mathlib.Data.List.Infix
import KeywordSieve.Verdict

/-!
What a verdict has to say. The rules are told term by term, without the order in which an
evaluation looks at excludes, override groups and includes; on each item they leave one verdict,
the one that evaluating gives.
-/
namespace KeywordSieve.Query.Filter

open Text Term

/-- The terms that stand somewhere in the text, in order. -/
def within (text : Text) (terms : List Text) : List Text :=
  terms.filter fun term => decide (term <:+: text)

/-- Every term of the group stands in the text; of an empty group nothing is asked. -/
def Holds (text : Text) (group : List Text) : Prop := ∀ term ∈ group, term <:+: text

/-- The first override group that holds is the one at place `i`. -/
structure FirstHolds (f : Filter) (text : Text) (i : Nat) : Prop where
  holds : ∃ group, f.overrides[i]? = some group ∧ Holds text group
  first : ∀ j < i, ∀ group, f.overrides[j]? = some group → ¬ Holds text group

structure Explains (f : Filter) (text : Text) (v : Verdict) : Prop where
  excluded : v.decision = .excluded ↔
    within text f.excludes ≠ [] ∧ ∀ group ∈ f.overrides, ¬ Holds text group
  excludedBy : v.excludedBy = within text f.excludes
  dropped : v.decision = .excluded → v.overrideGroup = none ∧ v.includedBy = []
  untouched : within text f.excludes = [] → v.overrideGroup = none
  overridden : v.decision ≠ .excluded → within text f.excludes ≠ [] →
    ∃ i : Nat, v.overrideGroup = some i ∧ FirstHolds f text i
  includedBy : v.decision ≠ .excluded → v.includedBy = within text f.includes
  unmatched : v.decision ≠ .excluded → (v.decision = .noIncludeMatch ↔
    f.includes ≠ [] ∧ ∀ term ∈ f.includes, ¬ term <:+: text)

theorem filter_foundIn (text : Text) (terms : List Text) :
    terms.filter (foundIn text) = within text terms := by
  unfold within
  congr 1
  funext term
  rw [Bool.eq_iff_iff, foundIn_iff, decide_eq_true_iff]

@[simp] theorem within_eq_nil {text : Text} {terms : List Text} :
    within text terms = [] ↔ ∀ term ∈ terms, ¬ term <:+: text := by
  simp [within]

theorem all_foundIn {text : Text} {group : List Text} :
    group.all (foundIn text) = true ↔ Holds text group := by
  simp only [List.all_eq_true, foundIn_iff, Holds]

/-- The search through the override groups stops at the first one that holds. -/
theorem findIdx?_foundIn {f : Filter} {text : Text} {i : Nat} :
    f.overrides.findIdx? (·.all (foundIn text)) = some i ↔ FirstHolds f text i := by
  rw [List.findIdx?_eq_some_iff_getElem]
  constructor
  · rintro ⟨hi, hh, hf⟩
    refine ⟨⟨f.overrides[i], List.getElem?_eq_getElem hi, all_foundIn.1 hh⟩, ?_⟩
    intro j hj group hg hd
    obtain ⟨hlt, rfl⟩ := List.getElem?_eq_some_iff.1 hg
    exact hf j hj (all_foundIn.2 hd)
  · rintro ⟨⟨group, hg, hh⟩, hf⟩
    obtain ⟨hi, rfl⟩ := List.getElem?_eq_some_iff.1 hg
    refine ⟨hi, all_foundIn.2 hh, ?_⟩
    intro j hj hd
    exact hf j hj _ (List.getElem?_eq_getElem (by omega)) (all_foundIn.1 hd)

theorem findIdx?_foundIn_none {f : Filter} {text : Text} :
    f.overrides.findIdx? (·.all (foundIn text)) = none ↔
      ∀ group ∈ f.overrides, ¬ Holds text group := by
  simp only [List.findIdx?_eq_none_iff, Bool.eq_false_iff, ne_eq, all_foundIn]

theorem FirstHolds.unique {f : Filter} {text : Text} {i j : Nat} (h : FirstHolds f text i)
    (h' : FirstHolds f text j) : i = j := by
  obtain ⟨group, hg, hh⟩ := h.holds
  obtain ⟨group', hg', hh'⟩ := h'.holds
  rcases Nat.lt_trichotomy i j with hlt | heq | hgt
  · exact absurd hh (h'.first i hlt group hg)
  · exact heq
  · exact absurd hh' (h.first j hgt group' hg')

def byIncludes (f : Filter) (text : Text) : Decision :=
  if f.includes ≠ [] ∧ within text f.includes = [] then .noIncludeMatch else .kept

@[simp] theorem byIncludes_ne_excluded (f : Filter) (text : Text) : f.byIncludes text ≠ .excluded := by
  unfold byIncludes
  split <;> intro h <;> cases h

theorem byIncludes_eq_noIncludeMatch {f : Filter} {text : Text} :
    f.byIncludes text = .noIncludeMatch ↔
      f.includes ≠ [] ∧ ∀ term ∈ f.includes, ¬ term <:+: text := by
  rw [← within_eq_nil]
  unfold byIncludes
  split <;> simp_all

theorem byIncludes_eq_kept {f : Filter} {text : Text} :
    f.byIncludes text = .kept ↔ f.includes = [] ∨ ∃ term ∈ f.includes, term <:+: text := by
  constructor
  · intro h
    by_contra hc
    push Not at hc
    rw [byIncludes_eq_noIncludeMatch.2 hc] at h
    cases h
  · intro h
    have hn : f.byIncludes text ≠ .noIncludeMatch := by
      intro he
      obtain ⟨hne, hno⟩ := byIncludes_eq_noIncludeMatch.1 he
      rcases h with hnil | ⟨term, hm, hi⟩
      · exact hne hnil
      · exact hno term hm hi
    have hx := f.byIncludes_ne_excluded text
    cases hd : f.byIncludes text with
    | kept => rfl
    | excluded => exact absurd hd hx
    | noIncludeMatch => exact absurd hd hn

/-- Nothing in the text is excluded: the verdict is about the includes only. -/
theorem judge_of_within_nil {f : Filter} {text : Text} (h : within text f.excludes = []) :
    f.judge text =
      { decision := f.byIncludes text
        includedBy := within text f.includes } := by
  simp [judge, byIncludes, filter_foundIn, h]

theorem judge_of_not_holds {f : Filter} {text : Text} (h : within text f.excludes ≠ [])
    (hg : ∀ group ∈ f.overrides, ¬ Holds text group) :
    f.judge text = { decision := .excluded, excludedBy := within text f.excludes } := by
  simp [judge, filter_foundIn, h, findIdx?_foundIn_none.2 hg]

/-- A group that holds cancels what is excluded, which the verdict still reports. -/
theorem judge_of_firstHolds {f : Filter} {text : Text} {i : Nat}
    (h : within text f.excludes ≠ []) (hi : FirstHolds f text i) :
    f.judge text =
      { decision := f.byIncludes text
        excludedBy := within text f.excludes
        overrideGroup := some i
        includedBy := within text f.includes } := by
  simp [judge, byIncludes, filter_foundIn, h, findIdx?_foundIn.2 hi]

theorem FirstHolds.exists_holds {f : Filter} {text : Text} {i : Nat} (h : FirstHolds f text i) :
    ∃ group ∈ f.overrides, Holds text group := by
  obtain ⟨group, hg, hh⟩ := h.holds
  exact ⟨group, List.mem_of_getElem? hg, hh⟩

/-- Either no group holds, or there is a first one that does. -/
theorem not_holds_or_firstHolds (f : Filter) (text : Text) :
    (∀ group ∈ f.overrides, ¬ Holds text group) ∨ ∃ i, FirstHolds f text i := by
  cases hi : f.overrides.findIdx? (·.all (foundIn text)) with
  | none => exact Or.inl (findIdx?_foundIn_none.1 hi)
  | some i => exact Or.inr ⟨i, findIdx?_foundIn.1 hi⟩

theorem explains_judge (f : Filter) (text : Text) : Explains f text (f.judge text) := by
  have hk := f.byIncludes_ne_excluded text
  by_cases hw : within text f.excludes = []
  · rw [judge_of_within_nil hw]
    exact {
      excluded := ⟨fun h => absurd h hk, fun h => absurd hw h.1⟩
      excludedBy := hw.symm
      dropped := fun h => absurd h hk
      untouched := fun _ => rfl
      overridden := fun _ h => absurd hw h
      includedBy := fun _ => rfl
      unmatched := fun _ => byIncludes_eq_noIncludeMatch }
  rcases not_holds_or_firstHolds f text with hg | ⟨i, hi⟩
  · rw [judge_of_not_holds hw hg]
    exact {
      excluded := ⟨fun _ => ⟨hw, hg⟩, fun _ => rfl⟩
      excludedBy := rfl
      dropped := fun _ => ⟨rfl, rfl⟩
      untouched := fun _ => rfl
      overridden := fun h => absurd rfl h
      includedBy := fun h => absurd rfl h
      unmatched := fun h => absurd rfl h }
  · obtain ⟨group, hm, hh⟩ := hi.exists_holds
    rw [judge_of_firstHolds hw hi]
    exact {
      excluded := ⟨fun h => absurd h hk, fun h => absurd hh (h.2 group hm)⟩
      excludedBy := rfl
      dropped := fun h => absurd h hk
      untouched := fun h => absurd h hw
      overridden := fun _ _ => ⟨i, rfl, hi⟩
      includedBy := fun _ => rfl
      unmatched := fun _ => byIncludes_eq_noIncludeMatch }

theorem decision_eq_of_iff {d d' : Decision} (hx : d = .excluded ↔ d' = .excluded)
    (hn : d ≠ .excluded → (d = .noIncludeMatch ↔ d' = .noIncludeMatch)) : d = d' := by
  cases d <;> cases d' <;> simp_all

/-- The rules leave nothing open. -/
theorem Explains.unique {f : Filter} {text : Text} {v v' : Verdict} (h : Explains f text v)
    (h' : Explains f text v') : v = v' := by
  have hx : v.decision = .excluded ↔ v'.decision = .excluded := h.excluded.trans h'.excluded.symm
  have hd : v.decision = v'.decision := by
    apply decision_eq_of_iff hx
    intro hne
    exact (h.unmatched hne).trans (h'.unmatched (mt hx.2 hne)).symm
  have hby : v.excludedBy = v'.excludedBy := h.excludedBy.trans h'.excludedBy.symm
  have hrest : v.overrideGroup = v'.overrideGroup ∧ v.includedBy = v'.includedBy := by
    by_cases hne : v.decision = .excluded
    · obtain ⟨hg, hi⟩ := h.dropped hne
      obtain ⟨hg', hi'⟩ := h'.dropped (hx.1 hne)
      exact ⟨hg.trans hg'.symm, hi.trans hi'.symm⟩
    have hne' := mt hx.2 hne
    refine ⟨?_, (h.includedBy hne).trans (h'.includedBy hne').symm⟩
    by_cases hw : within text f.excludes = []
    · rw [h.untouched hw, h'.untouched hw]
    · obtain ⟨i, hi, hf⟩ := h.overridden hne hw
      obtain ⟨j, hj, hf'⟩ := h'.overridden hne' hw
      rw [hi, hj, hf.unique hf']
  cases v
  cases v'
  rw [Verdict.mk.injEq]
  exact ⟨hd, hby, hrest⟩

/-- Whether a text is kept, told by the terms that stand in it. -/
theorem isMatch_judge {f : Filter} {text : Text} :
    (f.judge text).isMatch = true ↔
      (within text f.excludes = [] ∨ ∃ group ∈ f.overrides, Holds text group) ∧
        (f.includes = [] ∨ ∃ term ∈ f.includes, term <:+: text) := by
  rw [Verdict.isMatch, beq_iff_eq]
  by_cases hw : within text f.excludes = []
  · rw [judge_of_within_nil hw, byIncludes_eq_kept]
    simp [hw]
  rcases not_holds_or_firstHolds f text with hg | ⟨i, hi⟩
  · rw [judge_of_not_holds hw hg]
    constructor
    · intro h
      cases h
    · rintro ⟨hnil | ⟨group, hm, hh⟩, -⟩
      · exact absurd hnil hw
      · exact absurd hh (hg group hm)
  · rw [judge_of_firstHolds hw hi, byIncludes_eq_kept]
    simp [hi.exists_holds]

/-- Evaluating gives the one verdict that explains the item, and keeps the item if no exclude is
left standing and the includes ask for nothing or for something that is there. -/
theorem evaluate_explains (f : Filter) (s : Subject) :
    (∀ v, f.evaluate s = v ↔ Explains f (searchText s.title s.summary) v) ∧
      (f.keeps s = true ↔
        (within (searchText s.title s.summary) f.excludes = [] ∨
            ∃ group ∈ f.overrides, Holds (searchText s.title s.summary) group) ∧
          (f.includes = [] ∨
            ∃ term ∈ f.includes, term <:+: searchText s.title s.summary)) := by
  refine ⟨?_, isMatch_judge⟩
  intro v
  constructor
  · rintro rfl
    exact explains_judge f _
  · exact (explains_judge f _).unique

end KeywordSieve.Query.Filter
