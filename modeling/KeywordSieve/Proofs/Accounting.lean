import KeywordSieve.Proofs.Explanation
import KeywordSieve.Proofs.Scheduling
import KeywordSieve.Proofs.Unfailing

/-!
The books of a run. Every item is kept, excluded or unmatched, whoever evaluates it and whenever
that ends, and the overridden items are those among the kept ones whose exclusion was cancelled.
-/
namespace KeywordSieve

open Text Term Query

namespace Query.Filter

/-- Excludes stand in the text, and an override group cancels them. -/
def Cancels (f : Filter) (text : Text) : Prop :=
  within text f.excludes ≠ [] ∧ ∃ group ∈ f.overrides, Holds text group

instance decidableHolds (text : Text) (group : List Text) : Decidable (Holds text group) :=
  inferInstanceAs (Decidable (∀ term ∈ group, term <:+: text))

instance decidableCancels (f : Filter) (text : Text) : Decidable (f.Cancels text) :=
  inferInstanceAs (Decidable (_ ∧ _))

/-- A verdict tells of an override group exactly if one cancels an exclusion, also when the item is
dropped for its includes. -/
theorem wasOverridden_judge {f : Filter} {text : Text} :
    (f.judge text).wasOverridden = true ↔ f.Cancels text := by
  by_cases hw : within text f.excludes = []
  · rw [judge_of_within_nil hw]
    constructor
    · intro h
      cases h
    · intro h
      exact absurd hw h.1
  rcases not_holds_or_firstHolds f text with hg | ⟨i, hi⟩
  · rw [judge_of_not_holds hw hg]
    constructor
    · intro h
      cases h
    · rintro ⟨-, group, hm, hh⟩
      exact absurd hh (hg group hm)
  · rw [judge_of_firstHolds hw hi]
    exact ⟨fun _ => ⟨hw, hi.exists_holds⟩, fun _ => rfl⟩

end Query.Filter

namespace Run

/-- There is no fourth decision. -/
theorem length_eq_decisions (vs : List Verdict) :
    vs.length = vs.countP (·.isMatch) + vs.countP (·.decision == .excluded) +
      vs.countP (·.decision == .noIncludeMatch) := by
  induction vs with
  | nil => rfl
  | cons v vs ih =>
    simp only [List.length_cons, List.countP_cons, Verdict.isMatch] at ih ⊢
    cases v.decision <;> simp <;> omega

/-- Every item is kept, excluded, or included by nothing. -/
theorem total_eq (r : Run) : r.total = r.kept + r.excluded + r.unmatched := by
  have hv : r.total = r.verdicts.length := by simp [total, verdicts]
  rw [hv]
  exact length_eq_decisions r.verdicts

theorem dropped_eq (r : Run) : r.dropped = r.excluded + r.unmatched := by
  have ht := r.total_eq
  rw [dropped]
  omega

theorem overridden_le_kept (r : Run) : r.overridden ≤ r.kept := by
  apply List.countP_mono_left
  intro v _ h
  rw [Bool.and_eq_true] at h
  exact h.1

theorem length_keptItems (r : Run) : r.keptItems.length = r.kept := by
  rw [keptItems, List.length_map, ← List.countP_eq_length_filter, kept, verdicts, List.countP_map]
  rfl

end Run

namespace Pipeline

def textOf (item : Feed.Item) : Text := searchText item.subject.title item.subject.summary

theorem overridden_run (p : Pipeline) {c : Circumstances} {items : List Feed.Item}
    (h : Pool.Complete items.length c.order) :
    (p.run c items).overridden =
      (p.run c items).keptItems.countP fun item => decide (p.filter.Cancels (textOf item)) := by
  rw [Run.overridden, Run.verdicts, evaluations_run p h, keptItems_run p h, List.map_map,
    List.countP_map, List.countP_filter]
  apply List.countP_congr
  intro item _
  have hw : (p.filter.evaluate item.subject).wasOverridden = true ↔ p.filter.Cancels (textOf item) :=
    Filter.wasOverridden_judge
  simp only [Function.comp_apply, Bool.and_eq_true, decide_eq_true_eq, hw]
  exact and_comm

/-- A pipeline of any number of workers gives every item, in order, the verdict of its filter,
whenever the evaluations end, and the counts of the run divide the items among them. That is the
result whoever writes the log; only a context with values that are nested too deep to be written can
end the run without one. -/
theorem run_accounts (f : Filter) (workers : Int) (hw : 1 ≤ workers) (items : List Feed.Item)
    (c : Circumstances) (hc : Pool.Complete items.length c.order) :
    ∃ p, make f workers = .ok p ∧ ∃ r : Run,
      (∀ j context, (p.perform j context c items).1 = .ok r ∨
        ¬ context.fields.AreScalar ∧ ∃ fault, fault.endsCall = true ∧
          (p.perform j context c items).1 = .error fault) ∧
        r.evaluations = items.map (fun item => (item, f.evaluate item.subject)) ∧
        (∀ c', (run ⟨f, 1⟩ c' items).evaluations = r.evaluations) ∧
        r.total = items.length ∧
        r.total = r.kept + r.excluded + r.unmatched ∧
        r.dropped = r.excluded + r.unmatched ∧
        r.overridden ≤ r.kept ∧
        r.overridden = r.keptItems.countP (fun item => decide (f.Cancels (textOf item))) ∧
        r.keptItems = items.filter (fun item => f.keeps item.subject) ∧
        r.keptItems.length = r.kept := by
  refine ⟨⟨f, workers.toNat⟩, ?_, run ⟨f, workers.toNat⟩ c items, ?_, ?_⟩
  · rw [make, if_neg (by omega)]
  · intro j context
    by_cases hs : context.fields.AreScalar
    · exact Or.inl (perform_ok _ j context c items hs)
    · refine (perform_cases _ j context c items).imp_right fun h => ⟨hs, h⟩
  have he : (run ⟨f, workers.toNat⟩ c items).evaluations =
      items.map fun item => (item, f.evaluate item.subject) :=
    evaluations_run ⟨f, workers.toNat⟩ hc
  refine ⟨he, ?_, ?_, Run.total_eq _, Run.dropped_eq _, Run.overridden_le_kept _,
    overridden_run ⟨f, workers.toNat⟩ hc, keptItems_run ⟨f, workers.toNat⟩ hc,
    Run.length_keptItems _⟩
  · intro c'
    rw [he]
    exact evaluations_single f c' items
  · rw [Run.total, he, List.length_map]

/-- Two workers, and the first item ends last. One of the two items whose exclusion is cancelled is
dropped for lack of an include. -/
theorem run_accounts_museum :
    let f := Filter.compile? (some "flood,-canvey,except(museum)")
    let items : List Feed.Item :=
      [{ title := "Canvey museum flood" }, { title := "Canvey museum" }, { title := "Canvey" }]
    let c : Circumstances := ⟨"7", 0, 0, [1, 2, 0], {}⟩
    Pool.Ends 2 [0, 1, 2] [] c.order ∧ Pool.Complete items.length c.order ∧
      ∃ p, make f 2 = .ok p ∧ ∃ r : Run, (∀ j, (p.perform j .empty c items).1 = .ok r) ∧
        r.total = 3 ∧ r.keptItems.length = r.kept ∧
        r.keptItems = items.filter (fun item => f.keeps item.subject) ∧
        (r.evaluations.map (·.2)).countP (·.wasOverridden) = 2 ∧
        r.overridden = r.keptItems.countP (fun item => decide (f.Cancels (textOf item))) := by
  intro f items c
  have he : Pool.Ends 2 [0, 1, 2] [] c.order := by
    refine .start (by decide) (.start (by decide) (.finish (by decide) ?_))
    exact .start (by decide) (.finish (by decide) (.finish (by decide) .idle))
  have hc : Pool.Complete items.length c.order := he.complete
  refine ⟨he, hc, ?_⟩
  obtain ⟨p, hp, r, hr, hv, -, ht, -, -, -, ho, hk, hl⟩ := run_accounts f 2 (by decide) items c hc
  have hscalar : Log.Context.empty.fields.AreScalar := List.forall_mem_nil _
  refine ⟨p, hp, r, fun j => (hr j .empty).resolve_right fun h => h.1 hscalar, ht, hl, hk, ?_, ho⟩
  rw [hv]
  decide +kernel

end Pipeline

end KeywordSieve
