import KeywordSieve.Text.Basic

/-!
Binary floating-point numbers of double precision, as exact values: a magnitude `m · 2 ^ q` with a
sign, an infinity, or no number. Every operation computes the exact rational result and rounds it
once, to the nearest value and to the even one of two that are equally near.
-/
namespace KeywordSieve

/-- A finite value has `m < 2 ^ 53`, and `q` is least unless `2 ^ 52 ≤ m`. -/
inductive Double where
  | finite (negative : Bool) (m : Nat) (q : Int)
  | infinite (negative : Bool)
  | nan
  deriving DecidableEq, Repr

namespace Double

def twoTo (k : Nat) : Nat := Nat.pow 2 k

def tenTo (k : Nat) : Nat := Nat.pow 10 k

def leastExponent : Int := -1074

def greatestExponent : Int := 971

def zero (negative : Bool) : Double := finite negative 0 leastExponent

/-- A quotient rounded to the nearest natural number, a half to the even one. -/
def roundDiv (n d : Nat) : Nat :=
  let quotient := n / d
  let twice := 2 * (n % d)
  if d < twice ∨ (twice = d ∧ quotient % 2 = 1) then quotient + 1 else quotient

/-- The quotient `n / (d · 2 ^ q)` as a fraction of naturals. -/
def scaled (n d : Nat) (q : Int) : Nat × Nat :=
  if q < 0 then (n * twoTo (-q).toNat, d) else (n, d * twoTo q.toNat)

/-- The exponent at which a quotient has a significand of 53 bits, if it is not too small. -/
def exponentOf (n d : Nat) : Int :=
  let guess : Int := n.log2 - d.log2 - 52
  let fits := scaled n d guess
  max leastExponent (if fits.1 < twoTo 52 * fits.2 then guess - 1 else guess)

/-- The double nearest to the quotient of two naturals, with a sign. -/
def ofRatio (negative : Bool) (n d : Nat) : Double :=
  if n = 0 then zero negative
  else
    let q := exponentOf n d
    let fraction := scaled n d q
    let m := roundDiv fraction.1 fraction.2
    let (m, q) := if m = twoTo 53 then (twoTo 52, q + 1) else (m, q)
    if greatestExponent < q then infinite negative else finite negative m q

/-- The double nearest to `digits · 10 ^ scale`. Scales far outside the range are not expanded. -/
def ofDecimal (negative : Bool) (digits : Nat) (scale : Int) : Double :=
  let size : Int := (Text.ofNat digits).length + scale
  if digits = 0 ∨ size < -400 then zero negative
  else if 400 < size then infinite negative
  else if scale < 0 then ofRatio negative digits (tenTo (-scale).toNat)
  else ofRatio negative (digits * tenTo scale.toNat) 1

def ratio (m : Nat) (q : Int) : Nat × Nat :=
  if q < 0 then (m, twoTo (-q).toNat) else (m * twoTo q.toNat, 1)

def isZero : Double → Bool
  | finite _ 0 _ => true
  | _ => false

/-- The integer that a double is equal to, if there is one. -/
def toInt? : Double → Option Int
  | finite negative m q =>
    let (n, d) := ratio m q
    if n % d = 0 then some (if negative then -(n / d : Nat) else (n / d : Nat)) else none
  | _ => none

def addMagnitudes : Double → Double → Double
  | finite _ m q, finite _ m' q' =>
    let (n, d) := ratio m q
    let (n', d') := ratio m' q'
    ofRatio false (n * d' + n' * d) (d * d')
  | nan, _ => nan
  | _, nan => nan
  | _, _ => infinite false

/-- A double that is not negative, times the double nearest to a natural number. -/
def timesNat (x : Double) (k : Nat) : Double :=
  match x, ofRatio false k 1 with
  | finite _ m q, finite _ m' q' =>
    let (n, d) := ratio m q
    let (n', d') := ratio m' q'
    ofRatio false (n * n') (d * d')
  | nan, _ => nan
  | _, _ => infinite false

def neg : Double → Double
  | finite negative m q => finite (!negative) m q
  | infinite negative => infinite (!negative)
  | nan => nan

/-- The double nearest to a value rounded to a number of decimal places, a half to the even. -/
def roundPlaces (places : Nat) : Double → Double
  | finite negative m q =>
    let (n, d) := ratio m q
    ofRatio negative (roundDiv (n * tenTo places) d) (tenTo places)
  | x => x

/-- The value of the decimal digits at the head of a text, their number, and what follows. -/
def leadingDigits (t : Text) : Nat × Nat × Text :=
  let ds := t.takeWhile Char.isDigit
  (ds.foldl (fun n c => 10 * n + (c.toNat - '0'.toNat)) 0, ds.length, t.dropWhile Char.isDigit)

def exponent? : Text → Option Int
  | [] => some 0
  | c :: rest =>
    if c = 'e' ∨ c = 'E' then
      let (negative, digits) := match rest with
        | '-' :: r => (true, r)
        | '+' :: r => (false, r)
        | r => (false, r)
      match leadingDigits digits with
      | (n, _ + 1, []) => some (if negative then -(n : Int) else n)
      | _ => none
    else none

/-- Reads an unsigned decimal number, with a point and an exponent as they may be. -/
def ofUnsigned? (negative : Bool) (t : Text) : Option Double :=
  let (whole, wholeCount, rest) := leadingDigits t
  let (fraction, fractionCount, rest) := match rest with
    | '.' :: r => leadingDigits r
    | r => (0, 0, r)
  if wholeCount + fractionCount = 0 then none
  else (exponent? rest).map fun e =>
    ofDecimal negative (whole * tenTo fractionCount + fraction) (e - fractionCount)

end Double

end KeywordSieve
