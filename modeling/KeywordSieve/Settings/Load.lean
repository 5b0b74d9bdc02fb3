import KeywordSieve.Document
import KeywordSieve.Settings.Environment
import KeywordSieve.Settings.Reading
import KeywordSieve.Settings.Report

/-!
Settings of a run, from a settings file and the environment. A file that is asked for has to exist;
otherwise one of two default files is read, or none.
-/
namespace KeywordSieve.Settings

open Text

inductive Error where
  | notFound (path : Path)
  | absent (path : Path)
  | malformed (path : Path) (e : Yaml.Error)
  | unreadable (path : Path) (r : Refusal)
  | empty
  | notMapping (kind : Text)
  | invalid (faults : List Fault)
  | environment (faults : List Environment.Fault)
  deriving Repr

def Error.report : Error → Report
  | notFound path =>
    { brief := "Specified configuration file not found: " ++ path.text
      suggestions := ["Ensure " ++ path.text ++ " exists",
        "Omit --config to use config.yaml or built-in defaults"] }
  | absent path =>
    { brief := "Configuration file not found: " ++ path.text
      suggestions := ["Copy config.example.yaml to config.yaml",
        "Ensure " ++ path.text ++ " exists and is readable"] }
  | malformed path e =>
    { brief := "Failed to parse YAML configuration: " ++ e.message path.text
      suggestions := ["Check YAML syntax in your config file",
        "Quote the keywords value; it usually contains commas and quotes"] }
  | unreadable path r =>
    { brief := "Failed to read configuration file: " ++ r.message path
      suggestions := ["Ensure " ++ path.text ++ " is readable"] }
  | empty =>
    { brief := "Configuration file is empty"
      suggestions := ["Copy config.example.yaml to config.yaml",
        "Remove the file to run with built-in defaults"] }
  | notMapping kind =>
    { brief := "Configuration file must contain a mapping, got " ++ kind
      suggestions := ["Review config.example.yaml for the expected layout"] }
  | invalid faults =>
    { brief := "Configuration validation failed"
      errors := faults.map (·.message)
      suggestions := ["Review config.example.yaml for correct format",
        "Verify field types match the expected schema"] }
  | environment faults =>
    { brief := "Environment variable validation failed"
      errors := faults.map (·.message)
      suggestions := ["Check the variables in your .env file",
        "Unset variables you do not need; all of them are optional"] }

/-- Why loading fails: an error to report, or one that ends the program. -/
inductive Failure where
  | reported (e : Error)
  | fatal (f : Fatal)
  deriving Repr

/-- The outcome of loading, and the notices given on the way, also if it fails. -/
structure Outcome (α : Type) where
  notices : List Notice
  result : Except Failure α

def candidates : List Path := [.ofText "config.yaml", .ofText "config/config.yaml"]

/-- The first of some paths at which there is something. A path of which that cannot be told ends the
search. -/
def firstFound (files : Files) : List Path → Except Failure (Option Path)
  | [] => .ok none
  | path :: rest =>
    match files.find path with
    | .ok true => .ok (some path)
    | .ok false => firstFound files rest
    | .error r => .error (.fatal (.refused r path))

/-- The settings file to read, if there is one. -/
def locate (files : Files) : Option Path → Except Failure (Option Path)
  | some path =>
    match files.find path with
    | .ok true => .ok (some path)
    | .ok false => .error (.reported (.notFound path))
    | .error r => .error (.fatal (.refused r path))
  | none => firstFound files candidates

def Failure.ofDocument (path : Path) : Document.Fault → Failure
  | .refused .absent => .reported (.absent path)
  | .refused r => .reported (.unreadable path r)
  | .malformed e => .reported (.malformed path e)
  | .fatal f => .fatal f

/-- Faults are reported if all of them have messages. -/
def Failure.ofFaults (faults : List Fault) : Failure :=
  if faults.all Fault.isWritable then .reported (.invalid faults) else .fatal .unwritable

def ofValue (v : Value) : Outcome Settings :=
  if !v.isTruthy then ⟨[], .error (.reported .empty)⟩
  else match v with
    | .mapping entries =>
      if noticesWritable entries then
        ⟨notices entries, (ofEntries entries).mapError .ofFaults⟩
      else ⟨[], .error (.fatal .unwritable)⟩
    | v => ⟨[], .error (.reported (.notMapping v.typeName))⟩

/-- The settings of the file that is found, given how documents are read. -/
def fromFile (files : Files) (read : Path → Except Document.Fault Value) (asked : Option Path) :
    Outcome Settings :=
  match locate files asked with
  | .error f => ⟨[], .error f⟩
  | .ok none => ⟨[], .ok {}⟩
  | .ok (some path) =>
    match read path with
    | .error fault => ⟨[], .error (.ofDocument path fault)⟩
    | .ok v => ofValue v

/-- The settings of the file and what the environment asks for. The environment is looked at only
if the file is in order. -/
def load (files : Files) (read : Path → Except Document.Fault Value) (asked : Option Path)
    (vars : Variables) : Outcome (Settings × Environment) :=
  let file := fromFile files read asked
  { notices := file.notices
    result := do
      let settings ← file.result
      let environment ← (Environment.ofVariables vars).mapError fun faults =>
        .reported (.environment faults)
      return (settings, environment) }

structure Overrides where
  query : Option Text := none
  level : Option Text := none
  deriving DecidableEq, Repr

/-- The query that replaces that of the file, if one does. -/
def overridingQuery (overrides : Overrides) (environment : Environment) : Option Text :=
  overrides.query.orElse fun _ => Environment.nonEmpty environment.keywords

/-- The settings with the environment and the command line taken into account. The level to log at
is kept with the environment. -/
def override (overrides : Overrides) (settings : Settings) (environment : Environment) :
    Settings × Environment :=
  let query := overridingQuery overrides environment
  let level := (Environment.nonEmpty overrides.level).orElse fun _ =>
    Environment.nonEmpty environment.level
  ({ settings with
      keywords := query.orElse fun _ => settings.keywords
      workers := environment.workers.getD settings.workers },
    { environment with level := some (level.getD settings.level.name) })

def resolve (files : Files) (read : Path → Except Document.Fault Value) (asked : Option Path)
    (vars : Variables) (overrides : Overrides) : Outcome (Settings × Environment) :=
  let loaded := load files read asked vars
  match loaded.result with
  | .error f => ⟨loaded.notices, .error f⟩
  | .ok (settings, environment) =>
    let query := overridingQuery overrides environment
    { notices := loaded.notices ++ (query.map Notice.ofQuery).getD []
      result := .ok (override overrides settings environment) }

end KeywordSieve.Settings
