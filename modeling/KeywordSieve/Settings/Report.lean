import KeywordSieve.Text.Basic

/-!
Reports of errors in the settings: a brief message, the single errors, and what to do about them.
-/
namespace KeywordSieve

open Text

structure Report where
  brief : Text
  errors : List Text := []
  suggestions : List Text := []
  deriving DecidableEq, Repr

namespace Report

/-- The lines of a part of a report, under a title; an empty part has none. -/
def part (title : Text) : List Text → List Text
  | [] => []
  | lines => ('\n' :: title) :: lines

def numbered (errors : List Text) : List Text :=
  errors.zipIdx.map fun (error, i) => "  " ++ ofNat (i + 1) ++ ". " ++ error

def message (r : Report) : Text :=
  joinWith "\n" (r.brief :: part "Validation Errors:" (numbered r.errors) ++
    part "Suggestions:" (r.suggestions.map ("  - " ++ ·)))

end Report

end KeywordSieve
