import KeywordSieve.Text.Basic

/-!
Settings of a run: the query, the number of workers, and how to log.
-/
namespace KeywordSieve

inductive LogLevel where
  | debug | info | warning | error | critical
  deriving DecidableEq, Repr

namespace LogLevel

def name : LogLevel → Text
  | debug => "DEBUG"
  | info => "INFO"
  | warning => "WARNING"
  | error => "ERROR"
  | critical => "CRITICAL"

def all : List LogLevel := [debug, info, warning, error, critical]

def ofName? (t : Text) : Option LogLevel := all.find? (·.name == t)

end LogLevel

inductive LogFormat where
  | json | keyValue
  deriving DecidableEq, Repr

namespace LogFormat

def name : LogFormat → Text
  | json => "json"
  | keyValue => "key-value"

def all : List LogFormat := [json, keyValue]

def ofName? (t : Text) : Option LogFormat := all.find? (·.name == t)

end LogFormat

/-- One worker evaluates the items in order. -/
structure Settings where
  keywords : Option Text := none
  workers : Nat := 1
  level : LogLevel := .info
  format : LogFormat := .keyValue
  deriving DecidableEq, Repr

namespace Settings

def fewestWorkers : Nat := 1

def mostWorkers : Nat := 64

/-- More workers than this draw a notice. -/
def manyWorkers : Nat := 16

end Settings

end KeywordSieve
