import KeywordSieve.Json.Written
import KeywordSieve.Yaml.Value

/-!
Which JSON texts are YAML of the same meaning, but for tabs. Between two parts there are spaces, tabs
and line feeds only, the name of a field and its colon stand on one line and are not too long,
strings hold no line ends and no characters that are not allowed, no code stands for half of a
character, numbers are not too long, and collections are not nested too deep.
-/
namespace KeywordSieve.Json

open Text

def Piece.fits : Piece → Bool
  | .plain c _ => Yaml.isAllowed c && !Yaml.isBreak c
  | .letter .. => true
  | .code _ _ _ _ n _ => !(0xd800 ≤ n && n < 0xe000)

def Literal.fits (l : Literal) : Bool := l.pieces.all Piece.fits

def Gap.fits (g : Gap) : Bool := g.text.all fun c => c == ' ' || c == '\t' || c == '\n'

def Simple.fits (s : Simple) : Bool := s.text.countP Char.isDigit ≤ Yaml.Number.greatestLength

def Name.fits (name : Name) : Bool :=
  name.before.fits && name.literal.fits && name.after.text.all (fun c => c == ' ' || c == '\t') &&
    name.literal.text.length + name.after.text.length ≤ 1024

mutual

def Written.fits : Written → Bool
  | .simple s => s.fits
  | .string l => l.fits
  | .array gap elements => gap.fits && elements.fits
  | .object gap fields => gap.fits && fields.fits

def Elements.fits : Elements → Bool
  | .nil => true
  | .cons before w after more => before.fits && w.fits && after.fits && more.fits

def Fields.fits : Fields → Bool
  | .nil => true
  | .cons name before w after more =>
    name.fits && before.fits && w.fits && after.fits && more.fits

end

mutual

def Written.nesting : Written → Nat
  | .simple _ => 0
  | .string _ => 0
  | .array _ elements => elements.nesting + 1
  | .object _ fields => fields.nesting + 1

def Elements.nesting : Elements → Nat
  | .nil => 0
  | .cons _ w _ more => max w.nesting more.nesting

def Fields.nesting : Fields → Nat
  | .nil => 0
  | .cons _ _ w _ more => max w.nesting more.nesting

end

def Whole.fits (deepest : Nat) (w : Whole) : Bool :=
  w.before.fits && w.root.fits && w.after.fits && w.root.nesting ≤ deepest

end KeywordSieve.Json
