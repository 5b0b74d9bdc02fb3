import KeywordSieve.Log.Journal
import KeywordSieve.Verdict

/-!
The events of filtering that are logged: a filter is compiled, an item is evaluated.
-/
namespace KeywordSieve.Log.Event

open Text

def count (n : Nat) : Value := .int n

def filterLogger : Text := "feedfilter.matching.engine"

def compiled (f : Query.Filter) : Call :=
  { logger := filterLogger
    message := "Keyword filter compiled"
    extra := .fields
      [("event", .text "filter.compiled"), ("include_count", count f.includes.length),
        ("exclude_count", count f.excludes.length),
        ("override_group_count", count f.overrides.length)] }

/-- A verdict on an item of a title, which may be missing. -/
def evaluated (title : Option Text) (v : Verdict) : Call :=
  { logger := filterLogger
    level := 10
    message := "Item " ++ v.decision.name ++ ": " ++ (title.getD "None")
    extra := .fields
      [("event", .text "filter.item.evaluated"), ("decision", .text v.decision.name),
        ("reason", .text v.reason), ("overridden", .bool v.wasOverridden)] }

end KeywordSieve.Log.Event
