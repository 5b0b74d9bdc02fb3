import KeywordSieve.Query.Filter
import KeywordSieve.Text.Quoted

/-!
Notices about settings that are valid but may not do what was meant. A query is never refused, so
an odd quote, an `except(` that stays open and a query without terms are only reported.
-/
namespace KeywordSieve

open Text Query

inductive Notice where
  | oddQuote
  | openOverride
  | noTerms (query : Text)
  | manyWorkers (count : Int)
  deriving DecidableEq, Repr

namespace Notice

def message : Notice → Text
  | oddQuote =>
    "Unbalanced double quote in filter keywords; the unmatched quote " ++
      "will be treated as part of a plain term"
  | openOverride =>
    "except( without a closing parenthesis in filter keywords; it will be read as plain terms"
  | noTerms query =>
    "Filter keywords " ++ quoted query ++ " contain no usable terms; every item will be kept"
  | manyWorkers count =>
    "Large max_workers (" ++ ofInt count ++ ") is unlikely to speed up filtering"

/-- Whether some `except(` has no closing parenthesis behind it, quoted or not. -/
def leavesOpen : Text → Bool
  | [] => false
  | c :: rest =>
    (match Override.opening? (c :: rest) with
     | some inside => !inside.contains ')'
     | none => false) || leavesOpen rest

def ofQuery (query : Text) : List Notice :=
  (if query.count '"' % 2 = 1 then [oddQuote] else []) ++
  (if leavesOpen query then [openOverride] else []) ++
  (if trim query ≠ [] ∧ (Filter.compile query).isEmpty then [noTerms query] else [])

end Notice

end KeywordSieve
