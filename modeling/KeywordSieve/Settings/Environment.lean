import KeywordSieve.Settings.Basic
import KeywordSieve.Number.Integer

/-!
Settings from environment variables. All are optional, and an empty one counts as not set; all
faults are reported together.
-/
namespace KeywordSieve

open Text

structure Variables where
  keywords : Option Text := none
  workers : Option Text := none
  level : Option Text := none
  label : Option Text := none
  deriving DecidableEq, Repr

namespace Variables

def keywordsName : Text := "FEEDFILTER_KEYWORDS"

def workersName : Text := "FEEDFILTER_MAX_WORKERS"

def levelName : Text := "LOG_LEVEL"

def labelName : Text := "ENVIRONMENT"

def ofLookup (lookup : Text → Option Text) : Variables :=
  { keywords := lookup keywordsName
    workers := lookup workersName
    level := lookup levelName
    label := lookup labelName }

end Variables

/-- What the environment asks for. The level is the name of one, or empty; the label is added to
log records. -/
structure Environment where
  keywords : Option Text := none
  workers : Option Nat := none
  level : Option Text := none
  label : Text := "local"
  deriving DecidableEq, Repr

namespace Environment

inductive Fault where
  | tooFewWorkers (n : Int)
  | notInteger (t : Text)
  | notLevel (t : Text)
  deriving DecidableEq, Repr

def Fault.message : Fault → Text
  | tooFewWorkers n =>
    "Invalid " ++ Variables.workersName ++ ": " ++ ofInt n ++ ". Must be at least 1."
  | notInteger t =>
    "Invalid " ++ Variables.workersName ++ ": '" ++ t ++ "'. Must be a valid integer."
  | notLevel t =>
    "Invalid " ++ Variables.levelName ++ ": '" ++ t ++ "'. Must be one of: " ++
      joinWith ", " (LogLevel.all.map (·.name))

/-- A variable that is set, and not to the empty text. -/
def nonEmpty (setting : Option Text) : Option Text := setting.filter (!·.isEmpty)

def readWorkers (setting : Option Text) : Except Fault (Option Nat) :=
  match nonEmpty setting with
  | none => .ok none
  | some t =>
    match Integer.ofText? t with
    | none => .error (.notInteger t)
    | some n => if n < 1 then .error (.tooFewWorkers n) else .ok (some n.toNat)

def readLevel (setting : Option Text) : Except Fault (Option Text) :=
  match nonEmpty setting with
  | none => .ok setting
  | some t =>
    let level := raise t
    if (LogLevel.ofName? level).isSome then .ok (some level) else .error (.notLevel level)

def faultsOf : Except Fault α → List Fault
  | .ok _ => []
  | .error f => [f]

/-- What the variables ask for, or all their faults. -/
def ofVariables (v : Variables) : Except (List Fault) Environment :=
  match readWorkers v.workers, readLevel v.level with
  | .ok workers, .ok level => .ok
      { keywords := nonEmpty v.keywords
        workers
        level
        label := (nonEmpty v.label).getD "local" }
  | workers, level => .error (faultsOf workers ++ faultsOf level)

end Environment

end KeywordSieve
