import KeywordSieve.Json.Reader

/-!
JSON values as they are written: which characters of a string are escaped and how, what stands for a
number, and the white space between the parts. Such a tree has a text, and it has the value that the
text denotes.
-/
namespace KeywordSieve.Json

open Text

inductive Piece where
  | plain (c : Char) (h : c ≠ '"' ∧ c ≠ '\\' ∧ 0x20 ≤ c.toNat)
  | letter (e c : Char) (h : escaped? e = some c)
  | code (a b c d : Char) (n : Nat) (h : hexCode? a b c d = some n)

namespace Piece

def text : Piece → Text
  | plain c _ => [c]
  | letter e _ _ => ['\\', e]
  | code a b c d _ _ => ['\\', 'u', a, b, c, d]

def number : Piece → Nat
  | plain c _ => c.toNat
  | letter _ c _ => c.toNat
  | code _ _ _ _ n _ => n

end Piece

structure Literal where
  pieces : List Piece
  value : Text
  denotes : textOfCodes? (pieces.map Piece.number) = some value

namespace Literal

def inside (l : Literal) : Text := l.pieces.flatMap Piece.text

def text (l : Literal) : Text := '"' :: (l.inside ++ ['"'])

def codes (l : Literal) : List Nat := l.pieces.map Piece.number

end Literal

structure Simple where
  text : Text
  value : Json
  denotes : simple? text = some (value, [])

structure Gap where
  text : Text
  blank : ∀ c ∈ text, isSpace c = true

/-- The name of a field, with the white space around it. -/
structure Name where
  before : Gap
  literal : Literal
  after : Gap

mutual

/-- The `gap` of a collection stands behind its opening bracket. -/
inductive Written where
  | simple (s : Simple)
  | string (l : Literal)
  | array (gap : Gap) (elements : Elements)
  | object (gap : Gap) (fields : Fields)

inductive Elements where
  | nil
  | cons (before : Gap) (w : Written) (after : Gap) (more : Elements)

inductive Fields where
  | nil
  | cons (name : Name) (before : Gap) (w : Written) (after : Gap) (more : Fields)

end

/-- What stands in front of a part of a collection. -/
def comma (first : Bool) : Text := if first then [] else [',']

def Name.text (name : Name) : Text :=
  name.before.text ++ (name.literal.text ++ (name.after.text ++ [':']))

mutual

def Written.text : Written → Text
  | .simple s => s.text
  | .string l => l.text
  | .array gap elements => '[' :: (gap.text ++ (elements.text true ++ [']']))
  | .object gap fields => '\x7b' :: (gap.text ++ (fields.text true ++ ['\x7d']))

def Elements.text (first : Bool) : Elements → Text
  | .nil => []
  | .cons before w after more =>
    comma first ++ (before.text ++ (w.text ++ (after.text ++ more.text false)))

def Fields.text (first : Bool) : Fields → Text
  | .nil => []
  | .cons name before w after more =>
    comma first ++ (name.text ++ (before.text ++ (w.text ++ (after.text ++ more.text false))))

end

mutual

def Written.json : Written → Json
  | .simple s => s.value
  | .string l => .text l.value
  | .array _ elements => .array elements.json
  | .object _ fields => .object fields.json

def Elements.json : Elements → List Json
  | .nil => []
  | .cons _ w _ more => w.json :: more.json

def Fields.json : Fields → List (Text × Json)
  | .nil => []
  | .cons name _ w _ more => (name.literal.value, w.json) :: more.json

end

structure Whole where
  before : Gap
  root : Written
  after : Gap

namespace Whole

def text (w : Whole) : Text := w.before.text ++ (w.root.text ++ w.after.text)

def json (w : Whole) : Json := w.root.json

end Whole

end KeywordSieve.Json
