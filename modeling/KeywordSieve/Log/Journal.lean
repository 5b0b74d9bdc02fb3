import KeywordSieve.Log.Line
import KeywordSieve.Text.Fold

/-!
The journal: from which level on calls are logged, and who writes them. Without a writer, warnings
and worse are written bare.
-/
namespace KeywordSieve.Log

open Text

structure Writer where
  format : LogFormat
  labels : Labels
  deriving DecidableEq, Repr

structure Journal where
  threshold : Nat := 30
  writers : List Writer := []
  deriving DecidableEq, Repr

/-- The fields of a call: none given, null in their place, or fields. -/
inductive Extra where
  | absent
  | null
  | fields (fs : Fields)
  deriving Repr

/-- A call to log a message. A component that is not empty is a field of the record. -/
structure Call where
  logger : Text
  component : Option Text := none
  level : Int := 20
  message : Text
  extra : Extra := .absent
  deriving Repr

namespace Call

/-- The fields of the record of a call. Fields that are given as null cannot be added to those of
a component. -/
def fields (c : Call) : Except Fault Fields :=
  match c.component.filter (!·.isEmpty), c.extra with
  | some component, .absent => .ok [("component", .text component)]
  | some component, .fields fs => .ok (Fields.setAll [("component", .text component)] fs)
  | some _, .null => .error (.notFields Value.null.typeName)
  | none, .fields fs => .ok fs
  | none, _ => .ok []

/-- The record of a call. The logger without a name is the root. -/
def record (m : Moment) (c : Call) : Except Fault Record := do
  let r : Record :=
    { logger := if c.logger.isEmpty then "root" else c.logger
      level := c.level
      message := c.message
      created := m.time
      room := m.room }
  r.withExtra (← c.fields)

end Call

/-- A written line; a bare one is a message without a writer. -/
inductive Entry where
  | line (t : Text)
  | bare (t : Text)
  deriving DecidableEq, Repr

namespace Entry

/-- What comes of a text that was to be written. One that there is not is left out, unless what is
wrong with it ends the call. -/
def ofText (entry : Text → Entry) : Except Fault Text → Except Fault (List Entry)
  | .ok t => .ok [entry t]
  | .error f => if f.endsCall then .error f else .ok []

def text : Entry → Text
  | line t => t
  | bare t => t

def line? : Entry → Option Text
  | line t => some t
  | bare _ => none

end Entry

inductive ConfigureFault where
  | level (t : Text)
  | format (t : Text)
  deriving DecidableEq, Repr

def ConfigureFault.message : ConfigureFault → Text
  | level t => "Invalid log level: " ++ t
  | format t => "Invalid log format: " ++ t ++ ". Must be 'json' or 'key-value'"

structure Configuration where
  level : Text := "INFO"
  format : Text := "key-value"
  environment : Option Text := some "local"
  deriving DecidableEq, Repr

/-- The levels that a configuration may name, some of them by two names. -/
def levelNumbers : List (Text × Nat) :=
  [("CRITICAL", 50), ("FATAL", 50), ("ERROR", 40), ("WARNING", 30), ("WARN", 30), ("INFO", 20),
    ("DEBUG", 10), ("NOTSET", 0)]

/-- The number of a level, by its name in capital letters. -/
def levelNumber? (name : Text) : Option Nat := levelNumbers.lookup name

namespace Writer

def dress (w : Writer) (context : Fields) (r : Record) : Record :=
  (r.withLabels w.labels).withContext context

def write (w : Writer) (context : Fields) (r : Record) : Except Fault (List Entry) :=
  Entry.ofText .line (Line.render w.format (w.dress context r))

end Writer

namespace Journal

/-- The least level that is written without a writer. -/
def bareThreshold : Int := 30

def withThreshold (threshold : Nat) (j : Journal) : Journal := { j with threshold }

def withoutWriters (j : Journal) : Journal := { j with writers := [] }

def withWriter (w : Writer) (j : Journal) : Journal := { j with writers := j.writers ++ [w] }

def isEnabled (j : Journal) (level : Int) : Bool := 0 < level && j.threshold ≤ level

def writeBare (r : Record) : Except Fault (List Entry) :=
  if r.level < bareThreshold then .ok [] else Entry.ofText .bare r.text

def write (j : Journal) (context : Fields) (r : Record) : Except Fault (List Entry) :=
  if j.writers.isEmpty then writeBare r
  else List.flatten <$> j.writers.mapM (·.write context r)

/-- What a call writes. A call that is not logged is not looked at. -/
def log (j : Journal) (context : Fields) (m : Moment) (c : Call) : Except Fault (List Entry) :=
  if j.isEnabled c.level then c.record m >>= j.write context else .ok []

/-- What some calls write, one after the other, up to one that fails. -/
def logAll (j : Journal) (context : Fields) (m : Moment) :
    List Call → List Entry × Option Fault
  | [] => ([], none)
  | c :: rest =>
    match j.log context m c with
    | .error f => ([], some f)
    | .ok entries =>
      let (more, fault) := logAll j context m rest
      (entries ++ more, fault)

/-- The call by which a configuration is logged. -/
def configuredCall (c : Configuration) : Call :=
  { logger := "feedfilter.logging.config"
    level := 10
    message := "Logging configured"
    extra := .fields
      [("event", .text "logging.configured"), ("component", .text "logging"),
        ("log_level", .text (raise c.level)), ("log_format", .text c.format)] }

/-- Configures a journal. What has been changed before a fault stays changed, so level and format are
looked at first. The writers of old configurations are removed. -/
def reconfigure (c : Configuration) : EStateM ConfigureFault Journal Unit :=
  match levelNumber? (raise c.level) with
  | none => throw (.level c.level)
  | some threshold =>
    match LogFormat.ofName? c.format with
    | none => throw (.format c.format)
    | some format => do
      modify (withThreshold threshold)
      modify withoutWriters
      modify (withWriter { format, labels := { environment := c.environment } })

/-- A new journal with a configuration. -/
def configure (c : Configuration) : Except ConfigureFault Journal :=
  match (reconfigure c).run {} with
  | .ok _ j => .ok j
  | .error f _ => .error f

end Journal

end KeywordSieve.Log
