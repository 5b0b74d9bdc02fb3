import KeywordSieve.Number.Double

/-!
The decimal text of a double: the fewest digits that read back to it, and of those the nearest to
it. They are found on grids of one, two, … seventeen digits; on each, only the two neighbours of
the value can lie in the interval of numbers that round to it.
-/
namespace KeywordSieve.Double

def compareScaled (a : Nat) (i : Int) (b : Nat) (j : Int) : Ordering :=
  compare (a * tenTo i.toNat * twoTo (-j).toNat) (b * twoTo j.toNat * tenTo (-i).toNat)

/-- Whether `a · 10 ^ i` rounds to `m · 2 ^ q`. The ends of the interval do if `m` is even. -/
def readsBack (m : Nat) (q : Int) (a : Nat) (i : Int) : Bool :=
  let below := if m = twoTo 52 ∧ leastExponent < q then 4 * m - 1 else 4 * m - 2
  let low := compareScaled a i below (q - 2)
  let high := compareScaled a i (4 * m + 2) (q - 2)
  (low == .gt || (m % 2 == 0 && low == .eq)) && (high == .lt || (m % 2 == 0 && high == .eq))

/-- The greatest multiple of `10 ^ i` that is not above `m · 2 ^ q`, as a factor. -/
def floorOn (m : Nat) (q i : Int) : Nat :=
  (m * twoTo q.toNat * tenTo (-i).toNat) / (twoTo (-q).toNat * tenTo i.toNat)

/-- The least `k` at or above a start with `m · 2 ^ q < 10 ^ k`, looked for in a few steps. -/
def magnitudeFrom (m : Nat) (q : Int) : Nat → Int → Int
  | 0, k => k
  | steps + 1, k =>
    if compareScaled 1 k m q == .gt then k else magnitudeFrom m q steps (k + 1)

/-- The number of digits in front of the decimal point, not positive for small values. -/
def magnitude (m : Nat) (q : Int) : Int :=
  magnitudeFrom m q 4 (((m.log2 : Int) + q) * 30103 / 100000 - 1)

/-- The hit on one grid: of two neighbours that read back, the nearer, of two as near the even. -/
def onGrid? (m : Nat) (q i : Int) : Option Nat :=
  let a := floorOn m q i
  match readsBack m q a i, readsBack m q (a + 1) i with
  | true, true =>
    match compareScaled (2 * a + 1) i m (q + 1) with
    | .gt => some a
    | .lt => some (a + 1)
    | .eq => some (if a % 2 = 0 then a else a + 1)
  | true, false => some a
  | false, true => some (a + 1)
  | false, false => none

/-- The first hit on the grids of `count`, `count + 1`, … digits, with the exponent of its grid. -/
def search (m : Nat) (q k : Int) (count : Nat) : Nat → Nat × Int
  | 0 => (floorOn m q (k - count), k - count)
  | more + 1 =>
    match onGrid? m q (k - count) with
    | some a => (a, k - count)
    | none => search m q k (count + 1) more

/-- The digits of the shortest decimal that reads back to a positive finite value, and the place of
the point, counted from the front of the digits. -/
def shortest (m : Nat) (q : Int) : Text × Int :=
  let (a, i) := search m q (magnitude m q) 1 17
  let digits := Text.ofNat a
  ((digits.reverse.dropWhile (· = '0')).reverse, digits.length + i)

/-- Writes digits with the point at a place: positionally from `1e-4` up to below `1e16`, otherwise
with an exponent of at least two digits. -/
def layOut (digits : Text) (point : Int) : Text :=
  if -4 < point ∧ point ≤ 0 then
    '0' :: '.' :: List.replicate (-point).toNat '0' ++ digits
  else if 0 < point ∧ point ≤ 16 then
    let whole := digits.take point.toNat
    let fraction := digits.drop point.toNat
    whole ++ List.replicate (point.toNat - whole.length) '0' ++
      '.' :: (if fraction.isEmpty then ['0'] else fraction)
  else
    let e := point - 1
    let fraction := match digits.drop 1 with
      | [] => []
      | ds => '.' :: ds
    digits.take 1 ++ fraction ++ 'e' :: (if e < 0 then '-' else '+') :: Text.digits 2 e.natAbs

def magnitudeText (m : Nat) (q : Int) : Text :=
  if m = 0 then "0.0" else layOut (shortest m q).1 (shortest m q).2

def text : Double → Text
  | finite negative m q => if negative then '-' :: magnitudeText m q else magnitudeText m q
  | infinite negative => if negative then "-inf" else "inf"
  | nan => "nan"

end KeywordSieve.Double
