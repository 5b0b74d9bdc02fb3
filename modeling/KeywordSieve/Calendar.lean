import KeywordSieve.Text.Basic

/-!
Dates of the Gregorian calendar, continued into the past, times of day with microseconds, and
instants counted from the beginning of 1970. `Date.ofDays` and `Date.toDays` convert between a
date and the number of its day.
-/
namespace KeywordSieve

structure Date where
  year : Int
  month : Nat
  day : Nat
  deriving DecidableEq, Repr

structure TimeOfDay where
  hour : Nat
  minute : Nat
  second : Nat
  microsecond : Nat := 0
  deriving DecidableEq, Repr

/-- A date and time; the offset from universal time is in seconds, if it is known. -/
structure DateTime where
  date : Date
  time : TimeOfDay
  offset : Option Int := none
  deriving DecidableEq, Repr

inductive CalendarFault where
  | year (n : Int)
  | month
  | day
  | hour
  | minute
  | second
  | offset (seconds : Int)
  deriving DecidableEq, Repr

namespace Date

def isLeap (year : Int) : Bool := year % 4 == 0 && (year % 100 != 0 || year % 400 == 0)

def daysInMonth (year : Int) (month : Nat) : Nat :=
  if month = 2 then (if isLeap year then 29 else 28)
  else if month = 4 ∨ month = 6 ∨ month = 9 ∨ month = 11 then 30
  else 31

/-- The date of a day, counted from 1 January 1970. Years are taken to begin in March, so that
the leap day is the last of its year. -/
def ofDays (days : Int) : Date :=
  let shifted := days + 719468
  let era := shifted / 146097
  let dayOfEra := shifted % 146097
  let yearOfEra := (dayOfEra - dayOfEra / 1460 + dayOfEra / 36524 - dayOfEra / 146096) / 365
  let dayOfYear := dayOfEra - (365 * yearOfEra + yearOfEra / 4 - yearOfEra / 100)
  let part := (5 * dayOfYear + 2) / 153
  let day := dayOfYear - (153 * part + 2) / 5 + 1
  let month := if part < 10 then part + 3 else part - 9
  let year := yearOfEra + 400 * era + (if month ≤ 2 then 1 else 0)
  ⟨year, month.toNat, day.toNat⟩

def toDays (d : Date) : Int :=
  let year := if d.month ≤ 2 then d.year - 1 else d.year
  let part : Int := if d.month ≤ 2 then d.month + 9 else d.month - 3
  let dayOfYear := (153 * part + 2) / 5 + d.day - 1
  365 * year + year / 4 - year / 100 + year / 400 + dayOfYear - 719468

def firstYear : Int := 1

def lastYear : Int := 9999

/-- The date with the given parts, if there is one in the years 1 to 9999. -/
def make (year month day : Nat) : Except CalendarFault Date :=
  if year < firstYear ∨ lastYear < year then .error (.year year)
  else if month < 1 ∨ 12 < month then .error .month
  else if day < 1 ∨ daysInMonth year month < day then .error .day
  else .ok ⟨year, month, day⟩

/-- The date as `YYYY-MM-DD`. -/
def text (d : Date) : Text :=
  Text.digits 4 d.year.toNat ++ '-' :: Text.digits 2 d.month ++ '-' :: Text.digits 2 d.day

end Date

namespace TimeOfDay

def make (hour minute second microsecond : Nat) : Except CalendarFault TimeOfDay :=
  if 23 < hour then .error .hour
  else if 59 < minute then .error .minute
  else if 59 < second then .error .second
  else .ok ⟨hour, minute, second, microsecond⟩

def clock (t : TimeOfDay) : Text :=
  Text.digits 2 t.hour ++ ':' :: Text.digits 2 t.minute ++ ':' :: Text.digits 2 t.second

def text (t : TimeOfDay) : Text :=
  if t.microsecond = 0 then t.clock else t.clock ++ '.' :: Text.digits 6 t.microsecond

end TimeOfDay

namespace DateTime

def secondsPerDay : Int := 86400

/-- An offset has to be shorter than a day. -/
def checkOffset (seconds : Int) : Except CalendarFault Int :=
  if -secondsPerDay < seconds ∧ seconds < secondsPerDay then .ok seconds
  else .error (.offset seconds)

/-- An offset as a sign, hours and minutes, and seconds if there are any. -/
def offsetText (seconds : Int) : Text :=
  let n := seconds.natAbs
  (if seconds < 0 then '-' else '+') :: Text.digits 2 (n / 3600) ++
    ':' :: Text.digits 2 (n / 60 % 60) ++
    (if n % 60 = 0 then [] else ':' :: Text.digits 2 (n % 60))

def text (separator : Char) (d : DateTime) : Text :=
  d.date.text ++ separator :: d.time.text ++ (d.offset.map offsetText).getD []

/-- Microseconds from the beginning of 1970, read as universal time. -/
def toMicroseconds (d : DateTime) : Int :=
  let seconds := d.date.toDays * secondsPerDay +
    (3600 * d.time.hour + 60 * d.time.minute + d.time.second : Nat) - d.offset.getD 0
  seconds * 1000000 + d.time.microsecond

/-- Whether two values denote one instant. A value without an offset equals none that has one. -/
def same (d d' : DateTime) : Bool :=
  d.offset.isSome == d'.offset.isSome && d.toMicroseconds == d'.toMicroseconds

/-- The universal date and time of an instant, given in microseconds. -/
def ofMicroseconds (instant : Int) : DateTime :=
  let seconds := instant / 1000000
  let ofDay := (seconds % secondsPerDay).toNat
  { date := Date.ofDays (seconds / secondsPerDay)
    time := ⟨ofDay / 3600, ofDay / 60 % 60, ofDay % 60, (instant % 1000000).toNat⟩ }

end DateTime

end KeywordSieve
