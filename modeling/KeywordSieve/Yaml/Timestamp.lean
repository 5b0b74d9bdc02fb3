import KeywordSieve.Yaml.Number
import KeywordSieve.Value

/-!
Plain scalars that are dates, or dates with a time of day. The parts of a bare date have all their
digits; those of a date with a time may lack a leading zero. Behind the time there may be a
fraction of a second and an offset from universal time.
-/
namespace KeywordSieve.Yaml.Timestamp

open Text Number

/-- The parts of a timestamp as they are written. The offset is in seconds. -/
structure Parts where
  year : Nat
  month : Nat
  day : Nat
  time : Option (Nat × Nat × Nat × Nat) := none
  offset : Option Int := none
  deriving Repr

/-- The number at the head of a text, of at least and at most so many digits, and what follows. -/
def digits? (least most : Nat) (t : Text) : Option (Nat × Text) :=
  let head := (t.take most).takeWhile Char.isDigit
  if head.length < least then none else some (ofDigits 10 head, t.drop head.length)

def expect? (p : Char → Bool) : Text → Option Text
  | [] => none
  | c :: rest => if p c then some rest else none

def isBlank (c : Char) : Bool := c == ' ' || c == '\t'

/-- What separates date and time: the letter `T`, or blanks. -/
def separator? : Text → Option Text
  | [] => none
  | c :: rest =>
    if c = 'T' ∨ c = 't' then some rest
    else if isBlank c then some (rest.dropWhile isBlank)
    else none

/-- The microseconds that a fraction of a second denotes, and what follows it. -/
def microseconds (t : Text) : Nat × Text :=
  match t with
  | '.' :: rest =>
    let head := rest.takeWhile Char.isDigit
    let six := head.take 6
    (ofDigits 10 (six ++ List.replicate (6 - six.length) '0'), rest.drop head.length)
  | _ => (0, t)

/-- The offset at the end of a text, after blanks; there may be none. -/
def offset? (t : Text) : Option (Option Int) :=
  match t, t.dropWhile isBlank with
  | [], _ => some none
  | _, ['Z'] => some (some 0)
  | _, s :: rest => do
    if s ≠ '-' ∧ s ≠ '+' then failure
    let (hours, rest) ← digits? 1 2 rest
    let minutes ← match rest with
      | [] => some 0
      | ':' :: rest =>
        match digits? 2 2 rest with
        | some (minutes, []) => some minutes
        | _ => none
      | _ => none
    return some (signed (s = '-') (3600 * hours + 60 * minutes))
  | _, [] => none

/-- The parts of a text that has the form of a timestamp. -/
def parts? (t : Text) : Option Parts := do
  let (year, rest) ← digits? 4 4 t
  let (month, afterMonth) ← digits? 1 2 (← expect? (· = '-') rest)
  let (day, rest) ← digits? 1 2 (← expect? (· = '-') afterMonth)
  match rest with
  | [] => if t.length = 10 then return { year, month, day } else failure
  | rest =>
    let (hour, rest) ← digits? 1 2 (← separator? rest)
    let (minute, rest) ← digits? 2 2 (← expect? (· = ':') rest)
    let (second, rest) ← digits? 2 2 (← expect? (· = ':') rest)
    let (microsecond, rest) := microseconds rest
    let offset ← offset? rest
    return { year, month, day, time := some (hour, minute, second, microsecond), offset }

/-- The date or time that the parts denote. The offset is checked first. -/
def Parts.value (p : Parts) : Except CalendarFault Value := do
  let offset ← p.offset.mapM DateTime.checkOffset
  let date ← Date.make p.year p.month p.day
  match p.time with
  | none => return .date date
  | some (hour, minute, second, microsecond) =>
    return .dateTime { date, time := ← TimeOfDay.make hour minute second microsecond, offset }

def value? (t : Text) : Option (Except ScalarFault Value) :=
  (parts? t).map fun p => p.value.mapError .calendar

end KeywordSieve.Yaml.Timestamp
