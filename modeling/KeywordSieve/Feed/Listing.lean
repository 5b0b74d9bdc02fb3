import KeywordSieve.Document
import KeywordSieve.Feed.Item

/-!
Items files. The document is a list of items, or a mapping with a list of items under the key
`items`; nothing counts as an empty list. One bad entry spoils the file: the first one is reported,
with its position.
-/
namespace KeywordSieve.Feed

open Text

inductive Problem where
  | absent
  | malformed (e : Yaml.Error)
  | unreadable (r : Refusal)
  | notList (kind : Text)
  | notMapping (kind : Text)
  | invalid (faults : List Item.Fault)
  deriving DecidableEq, Repr

structure Fault where
  index : Option Nat := none
  problem : Problem
  deriving DecidableEq, Repr

def Problem.message (path : Path) : Problem → Text
  | absent => "file not found"
  | malformed e => "failed to parse: " ++ e.message path.text
  | unreadable r => "failed to read: " ++ r.message path
  | notList kind => "expected a list of items, got " ++ kind
  | notMapping kind => "expected a mapping, got " ++ kind
  | invalid faults => joinWith "; " (faults.map (·.message))

/-- Puts the path of a file, and the position of an entry, in front of a message. -/
def located (path : Path) (index : Option Int) (message : Text) : Text :=
  path.text ++ (match index with
    | some i => " [item " ++ ofInt i ++ "]"
    | none => []) ++ ": " ++ message

def Fault.message (path : Path) (f : Fault) : Text :=
  located path (f.index.map Int.ofNat) (f.problem.message path)

/-- What the document holds in place of the list of items. -/
def listed : Value → Value
  | .null => .list []
  | .mapping entries =>
    match Value.lookup "items" entries with
    | some v => if v.isTruthy then v else .list []
    | none => .mapping entries
  | v => v

def entry : Value → Except Problem Item
  | .mapping entries => (Item.ofEntries entries).mapError .invalid
  | v => .error (.notMapping v.typeName)

/-- The items of entries, the first of which has a given position. -/
def entriesFrom (index : Nat) : List Value → Except Fault (List Item)
  | [] => .ok []
  | v :: rest => do
    let item ← (entry v).mapError fun problem => { index := some index, problem }
    return item :: (← entriesFrom (index + 1) rest)

/-- The items of a document. -/
def ofValue (v : Value) : Except Fault (List Item) :=
  match listed v with
  | .list entries => entriesFrom 0 entries
  | v => .error { problem := .notList v.typeName }

/-- Why an items file gives no items: a fault to report, or one that ends the program. -/
inductive Failure where
  | reported (fault : Fault)
  | fatal (f : Fatal)
  deriving DecidableEq, Repr

def Failure.ofDocument : Document.Fault → Failure
  | .refused .absent => .reported { problem := .absent }
  | .refused r => .reported { problem := .unreadable r }
  | .malformed e => .reported { problem := .malformed e }
  | .fatal f => .fatal f

/-- The items of an items file, given what reading it as a document gave. -/
def ofDocument (document : Except Document.Fault Value) : Except Failure (List Item) := do
  let v ← document.mapError .ofDocument
  (ofValue v).mapError .reported

def load (deepest : Nat) (files : Files) (path : Path) : Except Failure (List Item) :=
  ofDocument (Document.read deepest files path)

end KeywordSieve.Feed
