import KeywordSieve.Yaml.Error
import KeywordSieve.Number.Double

/-!
Plain scalars that are numbers. Integers are written in decimal, binary, octal or hexadecimal, or
with parts of sixty between colons; floating-point numbers need a point. Underscores may stand
between digits and have no meaning.
-/
namespace KeywordSieve.Yaml.Number

open Text

def isGrouped (c : Char) : Bool := c.isDigit || c == '_'

def startsWithDigit (first : Char → Bool) : Text → Bool
  | [] => false
  | c :: rest => first c && rest.all isGrouped

def isPositiveDigit (c : Char) : Bool := '1' ≤ c && c ≤ '9'

/-- Whether a text is a number below sixty of one or two digits. -/
def isSixtieth : Text → Bool
  | [c] => c.isDigit
  | [c, d] => '0' ≤ c && c ≤ '5' && d.isDigit
  | _ => false

def sign : Text → Bool × Text
  | '-' :: rest => (true, rest)
  | '+' :: rest => (false, rest)
  | t => (false, t)

def signed (negative : Bool) (n : Nat) : Int := if negative then -(n : Int) else n

def bare (t : Text) : Text := t.filter (· ≠ '_')

def digitValue (c : Char) : Nat :=
  if c.isDigit then c.toNat - '0'.toNat
  else if 'a' ≤ c then c.toNat - 'a'.toNat + 10
  else c.toNat - 'A'.toNat + 10

def ofDigits (base : Nat) (t : Text) : Nat := t.foldl (fun n c => base * n + digitValue c) 0

/-- Longer decimal numbers are refused. -/
def greatestLength : Nat := 4300

def decimal (t : Text) : Except ScalarFault Nat :=
  if t.length ≤ greatestLength then .ok (ofDigits 10 t) else .error (.tooManyDigits t.length)

/-- The value of digits behind the sign of a base; underscores alone are not enough. -/
def based (base : Nat) (t : Text) : Except ScalarFault Nat :=
  match bare t with
  | [] => .error (.noDigits base)
  | digits => .ok (ofDigits base digits)

/-- The value of parts, the later of which count sixtieths of the earlier. -/
def sexagesimal (parts : List Text) : Except ScalarFault Nat :=
  parts.foldlM (fun n part => return 60 * n + (← decimal part)) 0

def isHexDigit (c : Char) : Bool :=
  isGrouped c || ('a' ≤ c && c ≤ 'f') || ('A' ≤ c && c ≤ 'F')

def isOctalDigit (c : Char) : Bool := ('0' ≤ c && c ≤ '7') || c == '_'

def isBinaryDigit (c : Char) : Bool := c == '0' || c == '1' || c == '_'

/-- The value of an unsigned integer, if the text has the form of one. -/
def natural? (t : Text) : Option (Except ScalarFault Nat) :=
  match t with
  | ['0'] => some (.ok 0)
  | '0' :: 'b' :: c :: rest =>
    if (c :: rest).all isBinaryDigit then some (based 2 (c :: rest)) else none
  | '0' :: 'x' :: c :: rest =>
    if (c :: rest).all isHexDigit then some (based 16 (c :: rest)) else none
  | '0' :: c :: rest =>
    if (c :: rest).all isOctalDigit then some (.ok (ofDigits 8 (bare (c :: rest)))) else none
  | t =>
    match pieces ':' t with
    | first :: more =>
      if startsWithDigit isPositiveDigit first && more.all isSixtieth then
        some (sexagesimal ((first :: more).map bare))
      else none
    | [] => none

/-- The value of an integer, if the text has the form of one. -/
def integer? (t : Text) : Option (Except ScalarFault Int) :=
  let (negative, unsigned) := sign t
  (natural? unsigned).map fun n => signed negative <$> n

/-- Whether a text is nothing, or an exponent with its sign. -/
def isExponent : Text → Bool
  | [] => true
  | e :: s :: digits =>
    (e == 'e' || e == 'E') && (s == '-' || s == '+') && !digits.isEmpty && digits.all Char.isDigit
  | _ => false

/-- Whether a text is digits and underscores, and perhaps an exponent. -/
def isFraction (t : Text) : Bool := isExponent (t.dropWhile isGrouped)

/-- The value of a text that has the form of an unsigned decimal fraction. -/
def fraction (t : Text) : Double := (Double.ofUnsigned? false (bare t)).getD .nan

/-- A double, times the double nearest to a natural number, which must not be infinite. -/
def timesUnit (x : Double) (unit : Nat) : Except ScalarFault Double :=
  match Double.ofRatio false unit 1 with
  | .infinite _ => .error .fractionOfTooManyParts
  | _ => .ok (x.timesNat unit)

/-- The sum of parts, the last of which counts ones, the one before it sixties, and so on. -/
def sexagesimalFraction (parts : List Text) : Except ScalarFault Double :=
  Prod.fst <$> parts.reverse.foldlM (fun (sum, unit) part =>
    return (Double.addMagnitudes sum (← timesUnit (fraction part) unit), 60 * unit))
    (Double.zero false, 1)

/-- The value of an unsigned floating-point number that begins with a digit. -/
def magnitude? (t : Text) : Option (Except ScalarFault Double) :=
  let whole := t.takeWhile (· ≠ '.')
  match t.dropWhile (· ≠ '.'), pieces ':' whole with
  | '.' :: rest, [_] =>
    if startsWithDigit Char.isDigit whole && isFraction rest then some (.ok (fraction t)) else none
  | '.' :: rest, first :: more =>
    if startsWithDigit Char.isDigit first && more.all isSixtieth && rest.all isGrouped then
      some (sexagesimalFraction (pieces ':' t))
    else none
  | _, _ => none

def isOneOf (spellings : List String) (t : Text) : Bool :=
  spellings.any fun s => t == s.toList

/-- The value of a floating-point number, if the text has the form of one. A number that begins
with a point has no sign. -/
def float? (t : Text) : Option (Except ScalarFault Double) :=
  let (negative, unsigned) := sign t
  let withSign (x : Double) : Double := if negative then x.neg else x
  if isOneOf [".inf", ".Inf", ".INF"] unsigned then some (.ok (.infinite negative))
  else if isOneOf [".nan", ".NaN", ".NAN"] t then some (.ok .nan)
  else match t with
    | '.' :: c :: rest => if c.isDigit && isFraction rest then some (.ok (fraction t)) else none
    | _ => (magnitude? unsigned).map (withSign <$> ·)

end KeywordSieve.Yaml.Number
