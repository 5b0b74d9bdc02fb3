import KeywordSieve.Text.Basic

/-!
Places in a YAML text, and a cursor that moves over it. Line ends are line feeds, next-line
characters, and the line and paragraph separators; carriage returns are gone beforehand.
-/
namespace KeywordSieve.Yaml

open Text

/-- A place: how many characters stand before it, and its line and column, counted from zero. -/
structure Mark where
  index : Nat := 0
  line : Nat := 0
  column : Nat := 0
  deriving DecidableEq, Repr

def isBreak (c : Char) : Bool :=
  c == '\n' || c == '\x85' || c == '\u2028' || c == '\u2029'

/-- The invisible character that may open a text; it takes up no column. -/
def byteOrderMark : Char := '\ufeff'

namespace Mark

def past (m : Mark) (c : Char) : Mark :=
  if isBreak c then ⟨m.index + 1, m.line + 1, 0⟩
  else if c = byteOrderMark then ⟨m.index + 1, m.line, m.column⟩
  else ⟨m.index + 1, m.line, m.column + 1⟩

/-- The place as a line of an error message. -/
def text (name : Text) (m : Mark) : Text :=
  "  in \"" ++ name ++ "\", line " ++ ofNat (m.line + 1) ++ ", column " ++ ofNat (m.column + 1)

end Mark

structure Cursor where
  ahead : Text
  mark : Mark := {}
  deriving Repr

namespace Cursor

def head? (c : Cursor) : Option Char := c.ahead.head?

/-- The character after the next one. -/
def second? (c : Cursor) : Option Char := c.ahead.tail.head?

def next : Cursor → Cursor
  | ⟨c :: rest, mark⟩ => ⟨rest, mark.past c⟩
  | c => c

def skip : Nat → Cursor → Cursor
  | 0, c => c
  | n + 1, c => skip n c.next

/-- Passes the characters up to the first without `p`. -/
def skipWhile (p : Char → Bool) (c : Cursor) : Cursor :=
  c.skip (c.ahead.takeWhile p).length

/-- Whether the next character is there and has `p`. -/
def sees (p : Char → Bool) (c : Cursor) : Bool := c.head?.any p

/-- Whether a word ends here: at white space, at a line end or at the end of the text. -/
def endsWord : Option Char → Bool
  | none => true
  | some c => c == ' ' || c == '\t' || isBreak c

/-- Whether a document marker stands here, given that a line begins here. -/
def atDocumentMarker (c : Cursor) : Bool :=
  let marker := c.ahead.take 3
  (marker == "---".toList || marker == "...".toList) && endsWord (c.ahead.drop 3).head?

/-- The text of a line end: line feed for all but the two separators. -/
def breakText (c : Char) : Char := if c = '\x85' then '\n' else c

end Cursor

end KeywordSieve.Yaml
