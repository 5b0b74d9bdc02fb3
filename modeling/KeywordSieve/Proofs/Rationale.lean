import KeywordSieve.Proofs.Explanation
import KeywordSieve.Proofs.Reasons
import KeywordSieve.Run.Results

/-!
Rationales hold together. A verdict by itself may hold any decision with any evidence; one that a
filter gives does not. Its rationale names only terms and groups of the filter, an override only
where something was excluded, and a reason that fits the decision.
-/
namespace KeywordSieve

open Text

def Json.field? (name : Text) : Json → Option Json
  | .object fields => fields.lookup name
  | _ => none

theorem Decision.name_injective : Function.Injective Decision.name := by
  intro d d'
  cases d <;> cases d' <;> decide

namespace Query.Filter

variable {f : Filter} {text : Text} {v : Verdict}

theorem within_sublist (text : Text) (terms : List Text) : (within text terms).Sublist terms :=
  List.filter_sublist

namespace Explains

/-- What is excluded was found, and nothing overrode it. -/
theorem excluded_iff (h : Explains f text v) :
    v.decision = .excluded ↔ v.excludedBy ≠ [] ∧ v.overrideGroup = none := by
  rw [h.excludedBy]
  constructor
  · intro hx
    exact ⟨(h.excluded.1 hx).1, (h.dropped hx).1⟩
  · rintro ⟨hne, hnone⟩
    by_contra hx
    obtain ⟨i, hi, -⟩ := h.overridden hx hne
    rw [hnone] at hi
    cases hi

/-- Only what was found is overridden, and by a group of the filter. -/
theorem overrideGroup_cases (h : Explains f text v) : v.overrideGroup = none ∨
    v.excludedBy ≠ [] ∧ ∃ i < f.overrides.length, v.overrideGroup = some (i : Int) := by
  by_cases hnone : v.overrideGroup = none
  · exact Or.inl hnone
  have hne : within text f.excludes ≠ [] := mt h.untouched hnone
  have hx : v.decision ≠ .excluded := fun hx => hnone (h.dropped hx).1
  obtain ⟨i, hi, hfirst⟩ := h.overridden hx hne
  obtain ⟨group, hg, -⟩ := hfirst.holds
  exact Or.inr ⟨h.excludedBy ▸ hne, i, (List.getElem?_eq_some_iff.1 hg).1, hi⟩

/-- The terms that include an item are told in the order of the filter. -/
theorem includedBy_sublist (h : Explains f text v) : v.includedBy.Sublist f.includes := by
  by_cases hx : v.decision = .excluded
  · rw [(h.dropped hx).2]
    exact List.nil_sublist _
  · rw [h.includedBy hx]
    exact within_sublist text f.includes

theorem of_noIncludeMatch (h : Explains f text v) (hn : v.decision = .noIncludeMatch) :
    f.includes ≠ [] ∧ v.includedBy = [] := by
  have hx : v.decision ≠ .excluded := by
    rw [hn]
    decide
  obtain ⟨hne, hno⟩ := (h.unmatched hx).1 hn
  exact ⟨hne, (h.includedBy hx).trans (within_eq_nil.2 hno)⟩

/-- An item is kept without an included term only if none is asked for. -/
theorem includedBy_eq_nil_iff (h : Explains f text v) (hk : v.decision = .kept) :
    v.includedBy = [] ↔ f.includes = [] := by
  have hx : v.decision ≠ .excluded := by
    rw [hk]
    decide
  rw [h.includedBy hx]
  constructor
  · intro hnil
    by_contra hne
    have hn := (h.unmatched hx).2 ⟨hne, within_eq_nil.1 hnil⟩
    rw [hk] at hn
    cases hn
  · intro hnil
    rw [hnil]
    rfl

end Explains

end Query.Filter

namespace Verdict

open Query.Filter

variable {v : Verdict}

/-- The reason of a verdict that keeps for want of anything to ask for. -/
theorem reason_eq_unasked : v.reason = "no include terms configured".toList ↔
    v.decision = .kept ∧ v.overrideGroup = none ∧ v.includedBy = [] := by
  have hr : v.reason = "no include terms configured".toList ↔
      v.ground = ground { decision := .kept } := @reason_eq_reason v { decision := .kept }
  rw [hr]
  constructor
  · intro h
    have hk : v.decision = .kept := by rw [← decision_ground v, h, decision_ground]
    rw [ground_kept hk, ground_kept rfl] at h
    rcases keptGround_eq_iff.1 h with ⟨i, -, hi⟩ | ⟨hg, -, ht⟩
    · cases hi
    · exact ⟨hk, hg, ht⟩
  · rintro ⟨hk, hg, ht⟩
    rw [ground_kept hk, ground_kept rfl, hg, ht]

/-- What the entries of a rationale say of its verdict. -/
theorem field?_json_iff (v : Verdict) :
    (v.json.field? "is_match" = some (.bool true) ↔ v.decision = .kept) ∧
      (∀ d : Decision, v.json.field? "decision" = some (.text d.name) ↔ v.decision = d) ∧
      (∀ terms : List Text, v.json.field? "excluded_terms" = some (.array (terms.map .text)) ↔
        v.excludedBy = terms) ∧
      (v.json.field? "override_group" = some .null ↔ v.overrideGroup = none) ∧
      (∀ i, v.json.field? "override_group" = some (.int i) ↔ v.overrideGroup = some i) ∧
      (∀ terms : List Text, v.json.field? "included_terms" = some (.array (terms.map .text)) ↔
        v.includedBy = terms) ∧
      ∀ t, v.json.field? "reason" = some (.text t) ↔ v.reason = t := by
  have htexts : Function.Injective (List.map Json.text) :=
    List.map_injective_iff.2 fun _ _ => Json.text.inj
  have hmatch : v.json.field? "is_match" = some (.bool v.isMatch) := rfl
  have hdecision : v.json.field? "decision" = some (.text v.decision.name) := rfl
  have hexcluded : v.json.field? "excluded_terms" = some (.array (v.excludedBy.map .text)) := rfl
  have hincluded : v.json.field? "included_terms" = some (.array (v.includedBy.map .text)) := rfl
  have hreason : v.json.field? "reason" = some (.text v.reason) := rfl
  have hgroup : v.json.field? "override_group" = some (v.overrideGroup.elim .null .int) := by
    rcases v with ⟨decision, excludedBy, _ | group, includedBy⟩ <;> rfl
  rw [hmatch, hdecision, hexcluded, hincluded, hreason, hgroup]
  refine ⟨by simp [isMatch], ?_, ?_, ?_, ?_, ?_, ?_⟩
  · simp [Decision.name_injective.eq_iff]
  · simp [htexts.eq_iff]
  · cases v.overrideGroup <;> simp
  · cases v.overrideGroup <;> simp
  · simp [htexts.eq_iff]
  · simp

end Verdict

namespace Query.Filter

open Term Verdict

structure Coheres (f : Filter) (d : Json) : Prop where
  kept : d.field? "is_match" = some (.bool true) ↔ d.field? "decision" = some (.text "kept")
  excluded : d.field? "decision" = some (.text "excluded") ↔
    d.field? "excluded_terms" ≠ some (.array []) ∧ d.field? "override_group" = some .null
  dropped : d.field? "decision" = some (.text "excluded") →
    d.field? "included_terms" = some (.array [])
  overridden : d.field? "override_group" = some .null ∨
    d.field? "excluded_terms" ≠ some (.array []) ∧
      ∃ i < f.overrides.length, d.field? "override_group" = some (.int i)
  excludedTerms : ∃ terms : List Text, terms.Sublist f.excludes ∧
    d.field? "excluded_terms" = some (.array (terms.map .text))
  includedTerms : ∃ terms : List Text, terms.Sublist f.includes ∧
    d.field? "included_terms" = some (.array (terms.map .text))
  unmatched : d.field? "decision" = some (.text "no_include_match") →
    f.includes ≠ [] ∧ d.field? "included_terms" = some (.array [])
  unasked : d.field? "reason" = some (.text "no include terms configured") ↔
    d.field? "is_match" = some (.bool true) ∧ d.field? "override_group" = some .null ∧
      f.includes = []

/-- The rationale of a verdict on an item holds together, for every filter. -/
theorem coheres_evaluate (f : Filter) (s : Subject) : f.Coheres (f.evaluate s).json := by
  have h : Explains f (searchText s.title s.summary) (f.evaluate s) := explains_judge f _
  obtain ⟨hkept, hdecision, hexcluded, hnull, hgroup, hincluded, hreason⟩ :=
    field?_json_iff (f.evaluate s)
  exact {
    kept := hkept.trans (hdecision .kept).symm
    excluded := by
      rw [hnull]
      exact (hdecision .excluded).trans
        (h.excluded_iff.trans (and_congr_left' (hexcluded []).not.symm))
    dropped := fun hx => (hincluded []).2 (h.dropped ((hdecision .excluded).1 hx)).2
    overridden := by
      rcases h.overrideGroup_cases with hnone | ⟨hne, i, hi, hsome⟩
      · exact Or.inl (hnull.2 hnone)
      · exact Or.inr ⟨mt (hexcluded []).1 hne, i, hi, (hgroup i).2 hsome⟩
    excludedTerms := by
      refine ⟨_, ?_, (hexcluded _).2 h.excludedBy⟩
      exact within_sublist _ f.excludes
    includedTerms := ⟨_, h.includedBy_sublist, (hincluded _).2 rfl⟩
    unmatched := by
      intro hn
      obtain ⟨hne, hnil⟩ := h.of_noIncludeMatch ((hdecision .noIncludeMatch).1 hn)
      exact ⟨hne, (hincluded []).2 hnil⟩
    unasked := by
      rw [hreason, hkept, hnull, reason_eq_unasked]
      constructor
      · rintro ⟨hk, hnone, hnil⟩
        exact ⟨hk, hnone, (h.includedBy_eq_nil_iff hk).1 hnil⟩
      · rintro ⟨hk, hnone, hnil⟩
        exact ⟨hk, hnone, (h.includedBy_eq_nil_iff hk).2 hnil⟩ }

end Query.Filter

end KeywordSieve
