import KeywordSieve.Query.Filter
import KeywordSieve.Text.Quoted

/-!
Verdicts of a filter on an item. The excludes found in the item are looked at first; the first
override group that is found in full cancels them. An item that stays excluded is dropped without
a look at the includes; any other is kept if the filter has no includes or one of them is found.
-/
namespace KeywordSieve

open Text Term Query

inductive Decision where
  | kept | excluded | noIncludeMatch
  deriving DecidableEq, Repr

namespace Decision

def name : Decision → Text
  | kept => "kept"
  | excluded => "excluded"
  | noIncludeMatch => "no_include_match"

def ofName? (t : Text) : Option Decision := [kept, excluded, noIncludeMatch].find? (·.name == t)

end Decision

structure Subject where
  title : Option Text
  summary : Option Text := none
  deriving DecidableEq, Repr

structure Verdict where
  decision : Decision
  excludedBy : List Text := []
  overrideGroup : Option Int := none
  includedBy : List Text := []
  deriving DecidableEq, Repr

namespace Verdict

def isMatch (v : Verdict) : Bool := v.decision == .kept

/-- Whether an override group cancelled an exclusion. -/
def wasOverridden (v : Verdict) : Bool := v.overrideGroup.isSome

/-- A short explanation of the decision, with the terms that led to it. -/
def reason (v : Verdict) : Text :=
  match v.decision with
  | .excluded => "matched_exclude_terms: " ++ quotedList v.excludedBy
  | .noIncludeMatch => "no include term found"
  | .kept =>
    match v.overrideGroup with
    | some group => "exclusion overridden by group " ++ ofInt group
    | none =>
      match v.includedBy with
      | [] => "no include terms configured"
      | terms => "matched_include_terms: " ++ quotedList terms

end Verdict

namespace Query.Filter

def judge (f : Filter) (text : Text) : Verdict :=
  let excludedBy := f.excludes.filter (foundIn text)
  let group := if excludedBy.isEmpty then none else f.overrides.findIdx? (·.all (foundIn text))
  if excludedBy ≠ [] ∧ group = none then
    { decision := .excluded, excludedBy }
  else
    let includedBy := f.includes.filter (foundIn text)
    { decision := if f.includes ≠ [] ∧ includedBy = [] then .noIncludeMatch else .kept
      excludedBy
      overrideGroup := group.map Int.ofNat
      includedBy }

def evaluate (f : Filter) (s : Subject) : Verdict := f.judge (searchText s.title s.summary)

def keeps (f : Filter) (s : Subject) : Bool := (f.evaluate s).isMatch

end Query.Filter

end KeywordSieve
