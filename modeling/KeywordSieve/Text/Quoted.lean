import KeywordSieve.Text.Basic
import KeywordSieve.Unicode.Printable

/-!
Quoted texts, as reasons and messages show them. A text stands between single quotes, or between
double quotes if it holds a single quote and no double one. A backslash, the quote itself and every
unprintable character are escaped, so that a quoted text shows where it ends.
-/
namespace KeywordSieve.Text

open Unicode

/-- The quote that needs the fewest escapes; the single quote if both need some. -/
def quoteFor (t : Text) : Char := if '\'' ∈ t ∧ '"' ∉ t then '"' else '\''

/-- The escape for a code point that is not shown as it is. -/
def escapeCode (n : Nat) : Text :=
  if n < 0x100 then '\\' :: 'x' :: hexDigits 2 n
  else if n < 0x10000 then '\\' :: 'u' :: hexDigits 4 n
  else '\\' :: 'U' :: hexDigits 8 n

/-- One character between quotes. -/
def escapeChar (quote c : Char) : Text :=
  if c = quote ∨ c = '\\' then ['\\', c]
  else if c = '\t' then ['\\', 't']
  else if c = '\n' then ['\\', 'n']
  else if c = '\r' then ['\\', 'r']
  else if isPrintable c then [c]
  else escapeCode c.toNat

/-- The text between quotes, with escapes. -/
def quoted (t : Text) : Text :=
  let quote := quoteFor t
  quote :: t.flatMap (escapeChar quote) ++ [quote]

def quotedList (ts : List Text) : Text :=
  '[' :: joinWith ", " (ts.map quoted) ++ [']']

/-- One byte between quotes: printable ASCII is shown as it is. -/
def escapeByte (quote : Char) (b : UInt8) : Text :=
  let c := Char.ofNat b.toNat
  if c = quote ∨ c = '\\' then ['\\', c]
  else if c = '\t' then ['\\', 't']
  else if c = '\n' then ['\\', 'n']
  else if c = '\r' then ['\\', 'r']
  else if 0x20 ≤ b ∧ b < 0x7f then [c]
  else escapeCode b.toNat

/-- Bytes between quotes, marked by a `b` in front. -/
def quotedBytes (bs : List UInt8) : Text :=
  let quote := quoteFor (bs.map fun b => Char.ofNat b.toNat)
  'b' :: quote :: bs.flatMap (escapeByte quote) ++ [quote]

end KeywordSieve.Text
