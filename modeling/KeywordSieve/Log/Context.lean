import KeywordSieve.Log.Record

/-!
The log context: fields that are added to every record while they are in force. A push gives a
token, by which the fields before it can be brought back, once, whatever has happened since. A
scope is a push that is undone when the scope is left. Fields lie in cells, and whoever asks for
those in force gets a cell of his own, so that he can change it without touching them.
-/
namespace KeywordSieve.Log

/-- Tokens are numbered in the order of the pushes, and cells in the order in which they are made. -/
abbrev Token := Nat

abbrev Cell := Nat

/-- `marks` holds for each token the cell in force before its push, until that is brought back. -/
structure Context where
  cells : List Fields := [[]]
  current : Cell := 0
  marks : List (Option Cell) := []
  current_lt : current < cells.length := by decide
  marks_lt : ∀ cell, some cell ∈ marks → cell < cells.length := by
    exact fun _ h => absurd h List.not_mem_nil
  deriving Repr

namespace Context

/-- No fields are in force, and no token has been given. -/
def empty : Context := {}

/-- The fields in a cell. -/
def content (c : Context) (cell : Cell) : Fields := c.cells.getD cell []

def fields (c : Context) : Fields := c.content c.current

/-- For each token the fields before its push, until they are brought back. -/
def saved (c : Context) : List (Option Fields) := c.marks.map (Option.map c.content)

/-- Makes a cell, which is the last one then. -/
def make (fs : Fields) (c : Context) : Context :=
  { c with
    cells := c.cells ++ [fs]
    current_lt := by simpa using Nat.lt_succ_of_lt c.current_lt
    marks_lt := fun cell h => by simpa using Nat.lt_succ_of_lt (c.marks_lt cell h) }

def change (cell : Cell) (added : Fields) (c : Context) : Context :=
  { c with
    cells := c.cells.modify cell (·.setAll added)
    current_lt := by simpa using c.current_lt
    marks_lt := by simpa using c.marks_lt }

/-- Puts fields in force, in a cell of their own. -/
def enforce (fs : Fields) (c : Context) : Context :=
  { c.make fs with
    current := c.cells.length
    current_lt := by simp [make] }

/-- Adds fields, some of which may replace others. -/
def push (added : Fields) (c : Context) : Token × Context :=
  (c.marks.length,
    { c.enforce (c.fields.setAll added) with
      marks := c.marks ++ [some c.current]
      marks_lt := fun cell h => by
        rcases List.mem_append.1 h with h | h
        · exact (c.make _).marks_lt cell h
        · cases List.mem_singleton.1 h
          exact (c.make _).current_lt })

/-- Brings back the fields before a push. A token serves once. -/
def pop? (token : Token) (c : Context) : Option Context :=
  match h : c.marks[token]? with
  | some (some cell) => some
    { c with
      current := cell
      marks := c.marks.set token none
      current_lt := c.marks_lt cell (List.mem_of_getElem? h)
      marks_lt := fun other ho =>
        c.marks_lt other ((List.mem_or_eq_of_mem_set ho).resolve_right (by simp)) }
  | _ => none

/-- Drops all fields. -/
def clear (c : Context) : Context := c.enforce []

/-- Asks for the fields in force, and changes what is given. -/
def scramble (added : Fields) (c : Context) : Context :=
  (c.make c.fields).change c.cells.length added

end Context

/-- A scope has a token while it is entered. -/
structure Scope where
  added : Fields
  token : Option Token := none
  deriving Repr

namespace Scope

/-- The name by which a scope knows itself, which none of its fields may have. -/
def ownName : Text := "self"

def make (added : Fields) : Except Fault Scope :=
  if (added.get? ownName).isSome then .error .scopeField else .ok { added }

/-- Entering a scope again, without leaving it, forgets the earlier token. -/
def enter (s : Scope) (c : Context) : Scope × Context :=
  let (token, c) := c.push s.added
  ({ s with token := some token }, c)

/-- Leaving a scope that is not entered changes nothing. -/
def leave (s : Scope) (c : Context) : Scope × Context :=
  match s.token with
  | none => (s, c)
  | some token => ({ s with token := none }, (c.pop? token).getD c)

end Scope

end KeywordSieve.Log
