import KeywordSieve.Text.Fold
import KeywordSieve.Unicode.Digit

/-!
Integers written in decimal. Digits may be grouped by single underscores. There are two readers: a
strict one that takes the digits of any script, for environment variables, and a lenient one that
also takes a fraction of zeros, for values of a settings file.
-/
namespace KeywordSieve.Integer

open Text Unicode

/-- Numbers of more digits are refused by both readers. -/
def greatestLength : Nat := 4300

/-- The value of digits with single underscores between them. -/
def grouped? (previousIsDigit : Bool) (value : Nat) : Text → Option Nat
  | [] => if previousIsDigit then some value else none
  | c :: rest =>
    if c.isDigit then grouped? true (10 * value + (c.toNat - '0'.toNat)) rest
    else if c = '_' ∧ previousIsDigit then grouped? false value rest
    else none

def signed? (read : Text → Option Nat) : Text → Option Int
  | '-' :: rest => (read rest).map fun n => -(n : Int)
  | '+' :: rest => (read rest).map Int.ofNat
  | t => (read t).map Int.ofNat

def isAsciiBlank (c : Char) : Bool := c == ' ' || ('\t' ≤ c && c ≤ '\r')

/-- White space and digits beyond ASCII in their ASCII form; other characters as they are. -/
def plain (c : Char) : Char :=
  if c.toNat < 0x7f then c
  else if isBlank c then ' '
  else match digit? c with
    | some n => Char.ofNat ('0'.toNat + n)
    | none => c

/-- Reads an integer: sign, digits of any script, white space around. -/
def ofText? (t : Text) : Option Int :=
  let body := trimBoth isAsciiBlank (t.map plain)
  if (body.filter Char.isDigit).length ≤ greatestLength then signed? (grouped? false 0) body
  else none

/-- White space without the information separators. -/
def isSpace (c : Char) : Bool := isBlank c && !(0x1c ≤ c.toNat && c.toNat ≤ 0x1f)

def isPositive (c : Char) : Bool := '1' ≤ c && c ≤ '9'

/-- Drops zeros and underscores in front of a digit or a minus sign; of those in front of a point,
or of nothing, the last one stays. -/
def dropZeros : Text → Option Text
  | '0' :: rest =>
    let last := (rest.takeWhile fun c => c = '0' ∨ c = '_').getLastD '0'
    match rest.dropWhile fun c => c = '0' ∨ c = '_' with
    | [] => some [last]
    | '.' :: fraction => some (last :: '.' :: fraction)
    | c :: more => if isPositive c ∨ c = '-' then some (c :: more) else none
  | c :: rest => if isPositive c ∨ c = '-' then some (c :: rest) else none
  | [] => none

/-- Drops leading zeros behind a sign, and a plus sign. -/
def dropSignedZeros : Text → Option Text
  | '+' :: '-' :: _ => none
  | '+' :: rest => dropZeros rest
  | '-' :: rest => (dropZeros rest).map ('-' :: ·)
  | t => dropZeros t

/-- Drops a fraction that consists of zeros. -/
def dropFraction (t : Text) : Text :=
  match t.dropWhile (· ≠ '.') with
  | '.' :: c :: zeros => if (c :: zeros).all (· = '0') then t.takeWhile (· ≠ '.') else t
  | _ => t

/-- Drops underscores, unless one stands outside or beside another. -/
def dropGrouping (t : Text) : Text :=
  if t.head? = some '_' ∨ t.getLast? = some '_' ∨ occurs "__" t then t else t.filter (· ≠ '_')

inductive Fault where
  | notInteger | tooLong
  deriving DecidableEq, Repr

/-- Reads digits behind a minus sign, without leading zeros. Too many digits are refused as such,
whatever follows them; the sign counts as one. -/
def ofDigits (t : Text) : Except Fault Int :=
  let (negative, body) := match t with
    | '-' :: rest => (true, rest)
    | t => (false, t)
  let digits := body.takeWhile Char.isDigit
  if body = ['0'] then .ok 0
  else if !body.head?.any isPositive then .error .notInteger
  else if greatestLength < digits.length + (if negative then 1 else 0) then .error .tooLong
  else if digits.length < body.length then .error .notInteger
  else
    let n := digits.foldl (fun n c => 10 * n + (c.toNat - '0'.toNat)) 0
    .ok (if negative then -(n : Int) else n)

/-- Reads an integer that may be written with a fraction of zeros. -/
def ofLenientText (t : Text) : Except Fault Int :=
  match dropSignedZeros (trimBoth isSpace t) with
  | some body => ofDigits (dropGrouping (dropFraction body))
  | none => .error .notInteger

end KeywordSieve.Integer
