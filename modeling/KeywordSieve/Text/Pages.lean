import KeywordSieve.Text.Utf8

/-!
The text of a file, read a page at a time. Bytes are fetched and decoded in pieces, each large
enough for the rest of a page as far as the piece before tells, so a fault is placed in its piece,
and the pages in front of it can still be read.
-/
namespace KeywordSieve.Pages

open Text

def pageLength : Nat := 4096

/-- How many bytes a piece has at least, if there are so many. -/
def leastPiece : Nat := 8192

/-- Where the characters begin that are read together with the one at an index. The first two
pages are read at once. -/
def start (index : Nat) : Nat :=
  if index < 2 * pageLength then 0 else index / pageLength * pageLength

/-- A file that is being read: the bytes to come, those held back from the last piece, whether a
carriage return is held back too, the text that is on no page yet, and the size of the last piece
in bytes and in characters. -/
structure Source where
  bytes : List UInt8
  held : List UInt8 := []
  carriage : Bool := false
  ready : Text := []
  lastBytes : Nat := 0
  lastLength : Nat := 0
  deriving Repr

namespace Source

/-- The size of the next piece, by the size of the last one and what the page still needs. -/
def pieceSize (s : Source) : Nat :=
  max leastPiece (s.lastBytes * (pageLength - s.ready.length) / s.lastLength)

theorem leastPiece_le_pieceSize (s : Source) : leastPiece ≤ s.pieceSize := Nat.le_max_left ..

def piece (s : Source) : Except Utf8.Fault (Text × List UInt8) :=
  Utf8.decodePart (s.held ++ s.bytes.take s.pieceSize)

/-- The source behind a piece. A carriage return at the end of a piece waits for the next one, since
a line feed may follow. -/
def behind (s : Source) (t : Text) (held : List UInt8) : Source :=
  let whole := if s.carriage && !t.isEmpty then '\r' :: t else t
  let ends := whole.getLast? == some '\r'
  let lines := unifyLines (if ends then whole.dropLast else whole)
  { bytes := s.bytes.drop s.pieceSize
    held
    carriage := ends || (s.carriage && t.isEmpty)
    ready := s.ready ++ lines
    lastBytes := (s.bytes.take s.pieceSize).length
    lastLength := lines.length }

/-- The whole pages in front of the first fault, and the fault. What the end holds back is one. -/
def pages (s : Source) : List Text × Utf8.Fault :=
  if pageLength ≤ s.ready.length then
    let (others, fault) := pages { s with ready := s.ready.drop pageLength }
    (s.ready.take pageLength :: others, fault)
  else if s.bytes = [] then ([], Utf8.endFault s.held)
  else match s.piece with
    | .error fault => ([], fault)
    | .ok (t, held) => pages (s.behind t held)
termination_by (s.bytes.length, s.ready.length)
decreasing_by
  · simp [Prod.lex_def, pageLength] at *
    omega
  · have := s.leastPiece_le_pieceSize
    have := List.length_pos_iff.2 ‹s.bytes ≠ []›
    simp [Prod.lex_def, behind, leastPiece] at *
    omega

end Source

/-- What can be read of bytes that are not UTF-8, and the fault that ends it. -/
def readable (bytes : List UInt8) : Text × Utf8.Fault :=
  let (pages, fault) := Source.pages { bytes }
  (if pages.length < 2 then [] else pages.flatten, fault)

end KeywordSieve.Pages
