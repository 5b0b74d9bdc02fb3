import KeywordSieve.Proofs.Quoting
import KeywordSieve.Proofs.Rendering
import KeywordSieve.Verdict

/-!
What the reason of a verdict tells. It begins with a label of its own for each kind of verdict, none
of which is the beginning of another one, and goes on with the terms or the group that decided. So
the decision and its evidence can be told from the reason, for all verdicts that can be made up.
-/
namespace KeywordSieve.Text

theorem ofInt_injective : Function.Injective ofInt := by
  intro i j h
  have hi := Json.number?_ofInt i Json.ends_nil
  rw [h, Json.number?_ofInt j Json.ends_nil] at hi
  exact (Json.int.inj (Prod.mk.inj (Option.some.inj hi)).1).symm

end KeywordSieve.Text

namespace KeywordSieve.Verdict

open Text

inductive Kind where
  | excluded | unmatched | overridden | included | unasked
  deriving DecidableEq, Repr

def Kind.label : Kind → Text
  | excluded => "matched_exclude_terms: "
  | unmatched => "no include term found"
  | overridden => "exclusion overridden by group "
  | included => "matched_include_terms: "
  | unasked => "no include terms configured"

/-- No label is the beginning of another one. -/
theorem Kind.eq_of_isPrefix {k k' : Kind} (h : k.label <+: k'.label) : k = k' := by
  revert h
  cases k <;> cases k' <;> decide +kernel

inductive Ground where
  | excluded (terms : List Text)
  | unmatched
  | overridden (group : Int)
  | included (terms : List Text)
  | unasked
  deriving DecidableEq, Repr

namespace Ground

variable {g g' : Ground}

def kind : Ground → Kind
  | excluded _ => .excluded
  | unmatched => .unmatched
  | overridden _ => .overridden
  | included _ => .included
  | unasked => .unasked

def evidence : Ground → Text
  | excluded terms => quotedList terms
  | overridden group => ofInt group
  | included terms => quotedList terms
  | _ => []

def text (g : Ground) : Text := g.kind.label ++ g.evidence

/-- No two kinds of reasons begin alike. -/
theorem kind_eq_of_text_eq (h : g.text = g'.text) : g.kind = g'.kind := by
  rcases List.append_eq_append_iff.1 h with ⟨more, he, -⟩ | ⟨more, he, -⟩
  · exact Kind.eq_of_isPrefix ⟨more, he.symm⟩
  · exact (Kind.eq_of_isPrefix ⟨more, he.symm⟩).symm

/-- A reason can be read only as what it tells. -/
theorem text_injective : Function.Injective text := by
  intro g g' h
  have hk := kind_eq_of_text_eq h
  have he : g.evidence = g'.evidence := by
    rw [text, text, hk] at h
    exact List.append_cancel_left h
  cases g with
  | excluded terms =>
    cases g' with
    | excluded terms' => rw [quotedList_injective he]
    | _ => cases hk
  | unmatched =>
    cases g' with
    | unmatched => rfl
    | _ => cases hk
  | overridden group =>
    cases g' with
    | overridden group' => rw [ofInt_injective he]
    | _ => cases hk
  | included terms =>
    cases g' with
    | included terms' => rw [quotedList_injective he]
    | _ => cases hk
  | unasked =>
    cases g' with
    | unasked => rfl
    | _ => cases hk

end Ground

/-- What the reason of a verdict that keeps tells: the includes do not matter behind an override. -/
def keptGround (group : Option Int) (terms : List Text) : Ground :=
  match group with
  | some group => .overridden group
  | none => if terms = [] then .unasked else .included terms

theorem keptGround_eq_iff {group group' : Option Int} {terms terms' : List Text} :
    keptGround group terms = keptGround group' terms' ↔
      (∃ i, group = some i ∧ group' = some i) ∨ group = none ∧ group' = none ∧ terms = terms' := by
  cases group <;> cases group' <;> simp only [keptGround]
  · cases terms <;> cases terms' <;> simp
  · split <;> simp
  · split <;> simp
  · simp [eq_comm]

def ground (v : Verdict) : Ground :=
  match v.decision with
  | .excluded => .excluded v.excludedBy
  | .noIncludeMatch => .unmatched
  | .kept => keptGround v.overrideGroup v.includedBy

variable {v w : Verdict}

theorem ground_excluded (h : v.decision = .excluded) : v.ground = .excluded v.excludedBy := by
  rw [ground, h]

theorem ground_noIncludeMatch (h : v.decision = .noIncludeMatch) : v.ground = .unmatched := by
  rw [ground, h]

theorem ground_kept (h : v.decision = .kept) :
    v.ground = keptGround v.overrideGroup v.includedBy := by
  rw [ground, h]

theorem reason_eq (v : Verdict) : v.reason = v.ground.text := by
  rcases v with ⟨decision, excludedBy, overrideGroup, includedBy⟩
  cases decision with
  | excluded => rfl
  | noIncludeMatch => rfl
  | kept =>
    cases overrideGroup with
    | some group => rfl
    | none => cases includedBy <;> rfl

theorem reason_eq_reason : v.reason = w.reason ↔ v.ground = w.ground := by
  rw [reason_eq, reason_eq, Ground.text_injective.eq_iff]

/-- The decision that stands behind a ground. -/
def Ground.decision : Ground → Decision
  | excluded _ => .excluded
  | unmatched => .noIncludeMatch
  | _ => .kept

@[simp] theorem decision_ground (v : Verdict) : v.ground.decision = v.decision := by
  cases hv : v.decision with
  | excluded => rw [ground_excluded hv, Ground.decision]
  | noIncludeMatch => rw [ground_noIncludeMatch hv, Ground.decision]
  | kept =>
    rw [ground_kept hv]
    unfold keptGround
    split
    · rfl
    · split <;> rfl

/-- The reasons of two verdicts are the same exactly if their decisions are, and the terms that
excluded, the group that overrode or, without one, the terms that were included. -/
theorem reason_eq_iff (v w : Verdict) : v.reason = w.reason ↔
    v.decision = w.decision ∧ (v.decision = .excluded → v.excludedBy = w.excludedBy) ∧
      (v.decision = .kept →
        (∃ group, v.overrideGroup = some group ∧ w.overrideGroup = some group) ∨
          v.overrideGroup = none ∧ w.overrideGroup = none ∧ v.includedBy = w.includedBy) := by
  rw [reason_eq_reason]
  constructor
  · intro h
    have hd : v.decision = w.decision := by rw [← decision_ground v, h, decision_ground]
    refine ⟨hd, ?_, ?_⟩
    · intro hx
      rw [ground_excluded hx, ground_excluded (hd ▸ hx)] at h
      exact Ground.excluded.inj h
    · intro hk
      rw [ground_kept hk, ground_kept (hd ▸ hk)] at h
      exact keptGround_eq_iff.1 h
  · rintro ⟨hd, hx, hk⟩
    cases hv : v.decision with
    | excluded => rw [ground_excluded hv, ground_excluded (hd ▸ hv), hx hv]
    | noIncludeMatch => rw [ground_noIncludeMatch hv, ground_noIncludeMatch (hd ▸ hv)]
    | kept => rw [ground_kept hv, ground_kept (hd ▸ hv), keptGround_eq_iff.2 (hk hv)]

end KeywordSieve.Verdict
