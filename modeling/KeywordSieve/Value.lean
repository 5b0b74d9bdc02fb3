import KeywordSieve.Number.Shortest
import KeywordSieve.Calendar
import KeywordSieve.Text.Quoted

/-!
Values of a document: what an items file or a settings file holds once it is read, and what a log
field may carry. Mappings keep the order of their keys.
-/
namespace KeywordSieve

open Text

inductive Value where
  | null
  | bool (b : Bool)
  | int (n : Int)
  | float (x : Double)
  | text (t : Text)
  | bytes (bs : List UInt8)
  | date (d : Date)
  | dateTime (d : DateTime)
  | list (vs : List Value)
  | tuple (vs : List Value)
  | mapping (entries : List (Value × Value))
  deriving Repr, Inhabited

namespace Value

/-- The name of the kind of a value, as messages give it. -/
def typeName : Value → Text
  | null => "NoneType"
  | bool _ => "bool"
  | int _ => "int"
  | float _ => "float"
  | text _ => "str"
  | bytes _ => "bytes"
  | date _ => "date"
  | dateTime _ => "datetime"
  | list _ => "list"
  | tuple _ => "tuple"
  | mapping _ => "dict"

/-- The name of the kind of a value with that of the group it belongs to. -/
def fullTypeName : Value → Text
  | date _ => "datetime.date"
  | dateTime _ => "datetime.datetime"
  | v => v.typeName

def shownDate (d : Date) : Text :=
  "datetime.date(" ++ ofInt d.year ++ ", " ++ ofNat d.month ++ ", " ++ ofNat d.day ++ ")"

/-- A span of less than a day, as days and seconds; days are negative for a negative span. -/
def shownSpan (seconds : Int) : Text :=
  let days := seconds / DateTime.secondsPerDay
  let rest := seconds % DateTime.secondsPerDay
  let parts : List Text :=
    (if days = 0 then [] else ["days=" ++ ofInt days]) ++
    (if rest = 0 then [] else ["seconds=" ++ ofInt rest])
  "datetime.timedelta(" ++ joinWith ", " (if parts.isEmpty then [['0']] else parts) ++ ")"

def shownOffset (seconds : Int) : Text :=
  if seconds = 0 then "datetime.timezone.utc"
  else "datetime.timezone(" ++ shownSpan seconds ++ ")"

def shownDateTime (d : DateTime) : Text :=
  let t := d.time
  let parts := [ofInt d.date.year, ofNat d.date.month, ofNat d.date.day, ofNat t.hour,
    ofNat t.minute] ++
    (if t.second = 0 ∧ t.microsecond = 0 then [] else [ofNat t.second]) ++
    (if t.microsecond = 0 then [] else [ofNat t.microsecond]) ++
    (match d.offset with
     | some seconds => ["tzinfo=" ++ shownOffset seconds]
     | none => [])
  "datetime.datetime(" ++ joinWith ", " parts ++ ")"

mutual

/-- A value as a message shows it: texts quoted, collections in brackets. -/
def shown : Value → Text
  | null => "None"
  | bool b => if b then "True" else "False"
  | int n => ofInt n
  | float x => x.text
  | text t => quoted t
  | bytes bs => quotedBytes bs
  | date d => shownDate d
  | dateTime d => shownDateTime d
  | list vs => '[' :: joinWith ", " (shownAll vs) ++ [']']
  | tuple [v] => '(' :: shown v ++ ",)"
  | tuple vs => '(' :: joinWith ", " (shownAll vs) ++ [')']
  | mapping entries => '\x7b' :: joinWith ", " (shownEntries entries) ++ ['\x7d']

def shownAll : List Value → List Text
  | [] => []
  | v :: vs => shown v :: shownAll vs

def shownEntries : List (Value × Value) → List Text
  | [] => []
  | (k, v) :: rest => (shown k ++ ": " ++ shown v) :: shownEntries rest

end

/-- A value as text: like `shown`, but texts and dates stand for themselves. -/
def display : Value → Text
  | text t => t
  | date d => d.text
  | dateTime d => d.text ' '
  | v => shown v

def hasMoreDigits : Nat → Nat → Bool
  | 0, n => 0 < n
  | count + 1, n => 10 ≤ n && hasMoreDigits count (n / 10)

/-- Integers of more decimal digits are not written out. -/
def mostDigits : Nat := 4300

def isTooLong (n : Int) : Bool := hasMoreDigits mostDigits n.natAbs

mutual

/-- Whether the integers in a value can be written out. -/
def isWritable : Value → Bool
  | int n => !isTooLong n
  | list vs => allWritable vs
  | tuple vs => allWritable vs
  | mapping entries => entriesWritable entries
  | _ => true

def allWritable : List Value → Bool
  | [] => true
  | v :: vs => isWritable v && allWritable vs

def entriesWritable : List (Value × Value) → Bool
  | [] => true
  | (k, v) :: rest => isWritable k && isWritable v && entriesWritable rest

end

def unwritableMessage : Text :=
  "Exceeds the limit (4300 digits) for integer string conversion; " ++
    "use sys.set_int_max_str_digits() to increase the limit"

/-- What keeps a value from being written out: an integer of too many digits, or collections that
are nested deeper than the stack allows. -/
inductive WriteFault where
  | digits | depth
  deriving DecidableEq, Repr

def WriteFault.message : WriteFault → Text
  | digits => unwritableMessage
  | depth => "maximum recursion depth exceeded while getting the repr of an object"

/-- How many values are shown inside each other for the zone of a date and time. -/
def zoneLevels (d : DateTime) : Nat :=
  match d.offset with
  | none => 0
  | some seconds => if seconds = 0 then 1 else 2

mutual

/-- What keeps a value from being shown, first things first, where values are shown inside each other
up to a given depth. -/
def refusal? (room : Nat) : Value → Option WriteFault
  | int n => if isTooLong n then some .digits else none
  | dateTime d => if room < zoneLevels d then some .depth else none
  | list vs => refusalOfAll room vs
  | tuple vs => refusalOfAll room vs
  | mapping entries => refusalOfEntries room entries
  | _ => none

def refusalOfAll (room : Nat) : List Value → Option WriteFault
  | [] => none
  | v :: rest =>
    match room with
    | 0 => some .depth
    | inner + 1 => (refusal? inner v).or (refusalOfAll room rest)

def refusalOfEntries (room : Nat) : List (Value × Value) → Option WriteFault
  | [] => none
  | (k, v) :: rest =>
    match room with
    | 0 => some .depth
    | inner + 1 => (refusal? inner k).or ((refusal? inner v).or (refusalOfEntries room rest))

end

/-- What keeps a value from being written as text. -/
def displayRefusal? (room : Nat) : Value → Option WriteFault
  | text _ => none
  | date _ => none
  | dateTime _ => none
  | v => refusal? room v

/-- Whether a value counts as something: not null, false, zero or empty. -/
def isTruthy : Value → Bool
  | null => false
  | bool b => b
  | int n => n != 0
  | float x => !x.isZero
  | text t => !t.isEmpty
  | bytes bs => !bs.isEmpty
  | list vs => !vs.isEmpty
  | tuple vs => !vs.isEmpty
  | mapping entries => !entries.isEmpty
  | date _ => true
  | dateTime _ => true

def integer? : Value → Option Int
  | bool b => some (if b then 1 else 0)
  | int n => some n
  | float x => x.toInt?
  | _ => none

/-- Whether two values are one key of a mapping. Numbers are compared by what they are worth. -/
def sameKey (v w : Value) : Bool :=
  match v.integer?, w.integer? with
  | some n, some m => n == m
  | none, none =>
    match v, w with
    | null, null => true
    | float .nan, float .nan => false
    | float x, float y => x == y
    | text t, text u => t == u
    | bytes a, bytes b => a == b
    | date d, date e => d == e
    | dateTime d, dateTime e => d.same e
    | _, _ => false
  | _, _ => false

/-- The value under a text key. -/
def lookup (key : Text) (entries : List (Value × Value)) : Option Value :=
  (entries.find? fun e => e.1.sameKey (text key)).map (·.2)

/-- Sets a key. A key that is there keeps its place, and its first spelling. -/
def insert (key value : Value) : List (Value × Value) → List (Value × Value)
  | [] => [(key, value)]
  | (k, v) :: rest =>
    if k.sameKey key then (k, value) :: rest else (k, v) :: insert key value rest

end Value

def CalendarFault.message : CalendarFault → Text
  | .year n => "year " ++ ofInt n ++ " is out of range"
  | .month => "month must be in 1..12"
  | .day => "day is out of range for month"
  | .hour => "hour must be in 0..23"
  | .minute => "minute must be in 0..59"
  | .second => "second must be in 0..59"
  | .offset seconds =>
    "offset must be a timedelta strictly between -timedelta(hours=24) and " ++
      "timedelta(hours=24), not " ++ Value.shownSpan seconds ++ ['.']

end KeywordSieve
