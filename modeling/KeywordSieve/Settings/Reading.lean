import KeywordSieve.Settings.Basic
import KeywordSieve.Number.Integer
import KeywordSieve.Query.Notice
import KeywordSieve.Value.Words

/-!
Settings from a mapping with the sections `filter`, `pipeline` and `logging`, each of which may be
missing. Unknown keys are ignored, and all faults are reported together. Notices about the values
as they are written come before the check for faults.
-/
namespace KeywordSieve.Settings

open Text Value

inductive Section where
  | filter | pipeline | logging
  deriving DecidableEq, Repr

namespace Section

def name : Section → Text
  | filter => "filter"
  | pipeline => "pipeline"
  | logging => "logging"

def model : Section → Text
  | filter => "FilterConfig"
  | pipeline => "PipelineConfig"
  | logging => "LoggingConfig"

end Section

inductive Entry where
  | keywords | workers | level | format
  deriving DecidableEq, Repr

namespace Entry

def home : Entry → Section
  | keywords => .filter
  | workers => .pipeline
  | level => .logging
  | format => .logging

def name : Entry → Text
  | keywords => "keywords"
  | workers => "max_workers"
  | level => "level"
  | format => "format"

def path (e : Entry) : Text := e.home.name ++ " -> " ++ e.name

end Entry

inductive Cause where
  | notText (v : Value)
  | notUnicode
  | unwritable
  | notInteger (v : Value)
  | tooLong
  | notFinite
  | notWhole
  | tooSmall
  | tooLarge
  | notLevel
  | notFormat
  deriving Repr

inductive Fault where
  | notSection (s : Section)
  | entry (e : Entry) (cause : Cause)
  deriving Repr

/-- Names between quotes, the last of which is joined by `or`. -/
def choices : List Text → Text
  | [] => []
  | [name] => '\'' :: name ++ ['\'']
  | [name, last] => '\'' :: name ++ "' or '" ++ last ++ ['\'']
  | name :: more => '\'' :: name ++ "', " ++ choices more

def Fault.message : Fault → Text
  | .notSection s =>
    s.name ++ ": Input should be a valid dictionary or instance of " ++ s.model
  | .entry e cause =>
    let invalidKind (expected : Text) (v : Value) : Text :=
      "Invalid type for '" ++ e.path ++ "': expected " ++ expected ++ ", got " ++ v.shown
    let invalidChoice (names : List Text) : Text :=
      "Invalid value for '" ++ e.path ++ "': Input should be " ++ choices names
    let plain (message : Text) : Text := e.path ++ ": " ++ message
    match cause with
    | .notText v => invalidKind "string" v
    | .notUnicode => plain WordsFault.notUnicode.message
    | .unwritable => plain ("Value error, " ++ unwritableMessage)
    | .notInteger v => invalidKind "int" v
    | .tooLong => plain "Unable to parse input string as an integer, exceeded maximum size"
    | .notFinite => plain "Input should be a finite number"
    | .notWhole => plain "Input should be a valid integer, got a number with a fractional part"
    | .tooSmall => plain ("Input should be greater than or equal to " ++ ofNat fewestWorkers)
    | .tooLarge => plain ("Input should be less than or equal to " ++ ofNat mostWorkers)
    | .notLevel => invalidChoice (LogLevel.all.map (·.name))
    | .notFormat => invalidChoice (LogFormat.all.map (·.name))

/-- Whether a fault has a message: a value in it has to be writable. -/
def Fault.isWritable : Fault → Bool
  | .entry _ (.notText v) => v.isWritable
  | .entry _ (.notInteger v) => v.isWritable
  | _ => true

/-- The query: a text, or a list of fragments, which are joined by commas. -/
def readKeywords : Value → Except Cause (Option Text)
  | .list fragments =>
    if !fragments.all isWritable then .error .unwritable
    else .ok (some (joinWith "," (fragments.map display)))
  | v => v.words?.mapError fun
    | .notText => .notText v
    | .notUnicode => .notUnicode

/-- The integer that a written number denotes. -/
def readWritten (v : Value) (t : Text) : Except Cause Int :=
  (Integer.ofLenientText t).mapError fun
    | .notInteger => .notInteger v
    | .tooLong => .tooLong

/-- The integer that a value denotes: itself, a double without a fraction, or a written number. -/
def readInteger (v : Value) : Except Cause Int :=
  match v with
  | .int n => .ok n
  | .bool b => .ok (if b then 1 else 0)
  | .float x =>
    match x, x.toInt? with
    | .finite .., some n => if n.natAbs < Double.twoTo 63 then .ok n else .error .tooLong
    | .finite .., none => .error .notWhole
    | _, _ => .error .notFinite
  | .text t => readWritten v t
  | .bytes bs =>
    match Utf8.decode? bs with
    | some t => readWritten v t
    | none => .error (.notInteger v)
  | _ => .error (.notInteger v)

def readWorkers (v : Value) : Except Cause Nat := do
  let n ← readInteger v
  if n < fewestWorkers then .error .tooSmall
  else if mostWorkers < n then .error .tooLarge
  else return n.toNat

def readName (ofName? : Text → Option α) (refusal : Cause) (v : Value) : Except Cause α :=
  match v.words.toOption.bind ofName? with
  | some a => .ok a
  | none => .error refusal

/-- A result, or the faults that stand in its way. -/
abbrev Checked (α : Type) := Except (List Fault) α

def sectionOf (s : Section) (document : List (Value × Value)) : Checked (List (Value × Value)) :=
  match Value.lookup s.name document with
  | none => .ok []
  | some (.mapping entries) => .ok entries
  | some _ => .error [.notSection s]

def entryOf (e : Entry) (default : α) (read : Value → Except Cause α)
    (entries : List (Value × Value)) : Checked α :=
  match Value.lookup e.name entries with
  | none => .ok default
  | some v => (read v).mapError fun cause => [.entry e cause]

/-- Both results, or the faults of both. -/
def both (a : Checked α) (b : Checked β) : Checked (α × β) :=
  match a, b with
  | .ok a, .ok b => .ok (a, b)
  | .error fs, .error gs => .error (fs ++ gs)
  | .error fs, .ok _ => .error fs
  | .ok _, .error gs => .error gs

/-- The settings that a mapping gives, or all its faults. -/
def ofEntries (document : List (Value × Value)) : Checked Settings := do
  let keywords := sectionOf .filter document >>= entryOf .keywords none readKeywords
  let workers := sectionOf .pipeline document >>= entryOf .workers 1 readWorkers
  let logging := sectionOf .logging document >>= fun entries =>
    both (entryOf .level .info (readName LogLevel.ofName? .notLevel) entries)
      (entryOf .format .keyValue (readName LogFormat.ofName? .notFormat) entries)
  let (keywords, workers, level, format) ← both keywords (both workers logging)
  return { keywords, workers, level, format }

/-- The value of a setting as it is written. -/
def written? (e : Entry) (document : List (Value × Value)) : Option Value :=
  match Value.lookup e.home.name document with
  | some (.mapping entries) => Value.lookup e.name entries
  | _ => none

def workersNotices (n : Int) : List Notice := if manyWorkers < n then [.manyWorkers n] else []

/-- Whether the notices about a mapping have texts. -/
def noticesWritable (document : List (Value × Value)) : Bool :=
  match written? .workers document with
  | some (.int n) => n ≤ manyWorkers || (Value.int n).isWritable
  | _ => true

/-- The notices about the values of a mapping as they are written. -/
def notices (document : List (Value × Value)) : List Notice :=
  (match written? .keywords document with
   | some (.text query) => Notice.ofQuery query
   | _ => []) ++
  (match written? .workers document with
   | some (.int n) => workersNotices n
   | _ => [])

end KeywordSieve.Settings
