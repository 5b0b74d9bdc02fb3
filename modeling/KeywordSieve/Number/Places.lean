import KeywordSieve.Number.Shortest

/-!
Decimal texts of a double with a chosen number of digits: so many places behind the point, or so
many significant digits with an exponent. The exact value is rounded once, a half to the even digit.
-/
namespace KeywordSieve.Double

open Text

/-- How a double is written: with places behind the point, with places and an exponent, or with so
many significant digits in the shorter of the two. -/
inductive Layout where
  | places | exponent | general
  deriving DecidableEq, Repr

/-- Digits with a point behind the first few. Without digits behind it the point is left out, unless
it is asked for. -/
def pointed (keepPoint : Bool) (whole fraction : Text) : Text :=
  if fraction.isEmpty && !keepPoint then whole else whole ++ '.' :: fraction

/-- The digits in front of the point and behind it, with a number of places. -/
def toPlaces (places m : Nat) (q : Int) : Text × Text :=
  let (n, d) := ratio m q
  let ds := digits (places + 1) (roundDiv (n * tenTo places) d)
  ds.splitAt (ds.length - places)

/-- A number of significant digits, and the exponent of the first one. -/
def toSignificant (count m : Nat) (q : Int) : Text × Int :=
  if m = 0 then (List.replicate count '0', 0)
  else
    let k := magnitude m q
    let i := k - count
    let n := m * twoTo q.toNat * tenTo (-i).toNat
    let d := twoTo (-q).toNat * tenTo i.toNat
    let rounded := roundDiv n d
    if rounded = tenTo count then (ofNat (tenTo (count - 1)), k) else (ofNat rounded, k - 1)

def exponentText (e : Int) : Text := 'e' :: (if e < 0 then '-' else '+') :: digits 2 e.natAbs

def dropLastZeros (t : Text) : Text := (t.reverse.dropWhile (· = '0')).reverse

/-- Significant digits with the point where an exponent says. -/
def placed (keepZeros : Bool) (ds : Text) (e : Int) : Text :=
  let ds := if e < 0 then List.replicate (-e).toNat '0' ++ ds else ds
  let (whole, fraction) := ds.splitAt (e.toNat + 1)
  pointed keepZeros whole (if keepZeros then fraction else dropLastZeros fraction)

def withExponent (keepPoint : Bool) (ds : Text) (e : Int) : Text :=
  pointed keepPoint (ds.take 1) (ds.drop 1) ++ exponentText e

/-- The text of a magnitude. If `full` is set the point always stays, and so do the zeros at the end
of a general text. -/
def magnitudeLaidOut (layout : Layout) (full : Bool) (precision m : Nat) (q : Int) : Text :=
  match layout with
  | .places =>
    let (whole, fraction) := toPlaces precision m q
    pointed full whole fraction
  | .exponent =>
    let (ds, e) := toSignificant (precision + 1) m q
    withExponent full ds e
  | .general =>
    let count := max precision 1
    let (ds, e) := toSignificant count m q
    if -4 ≤ e ∧ e < count then placed full ds e
    else withExponent full (ds.take 1 ++ if full then ds.drop 1 else dropLastZeros (ds.drop 1)) e

def laidOut (layout : Layout) (full : Bool) (precision : Nat) : Double → Bool × Text
  | finite negative m q => (negative, magnitudeLaidOut layout full precision m q)
  | infinite negative => (negative, "inf")
  | nan => (false, "nan")

end KeywordSieve.Double
