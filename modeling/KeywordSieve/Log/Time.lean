import KeywordSieve.Value
import KeywordSieve.Number.Double

/-!
The times that log lines show. The time of a record is kept as seconds in double precision, which
gives back every microsecond up to the year 2242. Both texts cut off what they do not show. Seconds
fill 64 bits and years, counted from 1900, fill 32; what lies outside has no text.
-/
namespace KeywordSieve.Log.Time

open Text

inductive Fault where
  | calendar (fault : CalendarFault)
  | secondsTooLarge
  | yearTooLarge
  | yearNotWritable
  deriving DecidableEq, Repr

def Fault.message : Fault → Text
  | calendar fault => fault.message
  | secondsTooLarge => "timestamp out of range for platform time_t"
  | yearTooLarge => "[Errno 75] Value too large for defined data type"
  | yearNotWritable => "signed integer is greater than maximum"

def microsecondsPerSecond : Nat := 1000000

def seconds (created : Int) : Double :=
  .ofRatio (created < 0) created.natAbs microsecondsPerSecond

/-- The greatest whole number of seconds that is not above. -/
def wholeSeconds : Double → Int
  | .finite negative m q =>
    let (n, d) := Double.ratio m q
    if negative then -((n + d - 1) / d : Nat) else (n / d : Nat)
  | _ => 0

def microseconds : Double → Int
  | .finite negative m q =>
    let (n, d) := Double.ratio m q
    let us := Double.roundDiv (n * microsecondsPerSecond) d
    if negative then -(us : Int) else us
  | _ => 0

/-- Whether an integer is one of so many bits, one of them for the sign. -/
def fits (bits : Nat) (n : Int) : Bool :=
  -(Double.twoTo (bits - 1) : Int) ≤ n && n < (Double.twoTo (bits - 1) : Int)

def instant (us : Int) : Except Fault DateTime :=
  let t := DateTime.ofMicroseconds us
  if !fits 64 (us / microsecondsPerSecond) then .error .secondsTooLarge
  else if !fits 32 (t.date.year - 1900) then .error .yearTooLarge
  else .ok t

/-- A date with the year as it is, without leading zeros. -/
def dateText (d : Date) : Text :=
  ofInt d.year ++ '-' :: digits 2 d.month ++ '-' :: digits 2 d.day

def clock (created : Int) : Except Fault Text := do
  let t ← instant (wholeSeconds (seconds created) * microsecondsPerSecond)
  if fits 32 t.date.year then return dateText t.date ++ ' ' :: t.time.clock
  else .error .yearNotWritable

/-- Date and time of day in universal time, to the millisecond. A year that needs more than 32 bits
is told as what is left of it in these. -/
def stamp (created : Int) : Except Fault Text := do
  let t ← instant (microseconds (seconds created))
  if t.date.year < Date.firstYear ∨ Date.lastYear < t.date.year then
    .error (.calendar (.year (t.date.year.bmod (Double.twoTo 32))))
  else return dateText t.date ++ 'T' :: t.time.clock ++
    '.' :: digits 3 (t.time.microsecond / 1000) ++ ['Z']

/-- The milliseconds behind the last full second on the way from zero, as a whole number. -/
def milliseconds (created : Int) : Double :=
  match seconds created with
  | .finite negative m q =>
    let (n, d) := Double.ratio m q
    match Double.ofRatio negative (n % d * 1000) d with
    | .finite negative m q =>
      let (n, d) := Double.ratio m q
      if n < d then .zero false else .ofRatio negative (n / d) 1
    | x => x
  | x => x

end KeywordSieve.Log.Time
