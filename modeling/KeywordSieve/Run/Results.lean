import KeywordSieve.Json.Basic
import KeywordSieve.Run

/-!
The results of a run as JSON lines: one for each item that was kept, or, with explanations, one
for each item.
-/
namespace KeywordSieve

open Text

def Feed.Item.json (item : Feed.Item) : Json :=
  .object
    [("title", .text item.title), ("summary", .text item.summary),
      ("url", match item.url with
        | some url => .text url
        | none => .null)]

/-- The decision and the evidence for it. -/
def Verdict.json (v : Verdict) : Json :=
  .object
    [("is_match", .bool v.isMatch), ("decision", .text v.decision.name),
      ("excluded_terms", .array (v.excludedBy.map .text)),
      ("override_group", match v.overrideGroup with
        | some group => .int group
        | none => .null),
      ("included_terms", .array (v.includedBy.map .text)), ("reason", .text v.reason)]

namespace Run

def explanation (e : Feed.Item × Verdict) : Json :=
  .object [("item", e.1.json), ("rationale", e.2.json)]

def lines (explain : Bool) (r : Run) : List Text :=
  if explain then r.evaluations.map fun e => (explanation e).render
  else r.keptItems.map fun item => item.json.render

end Run

end KeywordSieve
