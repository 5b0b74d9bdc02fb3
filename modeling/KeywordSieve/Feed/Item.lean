import KeywordSieve.Value.Words
import KeywordSieve.Verdict

/-!
Candidate items. An item is read from a mapping with a title, which may not be blank, and perhaps
a summary and a link; other keys are ignored. All faults of a mapping are reported together.
-/
namespace KeywordSieve.Feed

open Text

/-- Only title and summary take part in filtering. -/
structure Item where
  title : Text
  summary : Text := []
  url : Option Text := none
  deriving DecidableEq, Repr

namespace Item

def subject (item : Item) : Subject := { title := some item.title, summary := some item.summary }

inductive Field where
  | title | summary | url
  deriving DecidableEq, Repr

def Field.name : Field → Text
  | title => "title"
  | summary => "summary"
  | url => "url"

inductive Cause where
  | missing
  | unreadable (fault : Value.WordsFault)
  | blank
  deriving DecidableEq, Repr

def Cause.message : Cause → Text
  | missing => "Field required"
  | unreadable fault => fault.message
  | blank => "Value error, Field cannot be empty or whitespace-only"

structure Fault where
  field : Field
  cause : Cause
  deriving DecidableEq, Repr

def Fault.message (f : Fault) : Text := f.field.name ++ ": " ++ f.cause.message

/-- A title is trimmed and may not be blank. -/
def readTitle : Option Value → Except Cause Text
  | none => .error .missing
  | some v => do
    let title := trim (← v.words.mapError .unreadable)
    if title = [] then .error .blank else .ok title

/-- A text that may be missing or null. -/
def readOptional : Option Value → Except Cause (Option Text)
  | none => .ok none
  | some v => v.words?.mapError .unreadable

def faultOf (field : Field) : Except Cause α → List Fault
  | .ok _ => []
  | .error cause => [⟨field, cause⟩]

/-- The item that a mapping describes, or all its faults. -/
def ofEntries (entries : List (Value × Value)) : Except (List Fault) Item :=
  let title := readTitle (Value.lookup (Field.name .title) entries)
  let summary := readOptional (Value.lookup (Field.name .summary) entries)
  let url := readOptional (Value.lookup (Field.name .url) entries)
  match title, summary, url with
  | .ok title, .ok summary, .ok url => .ok { title, summary := summary.getD [], url }
  | title, summary, url =>
    .error (faultOf .title title ++ faultOf .summary summary ++ faultOf .url url)

end Item

end KeywordSieve.Feed
