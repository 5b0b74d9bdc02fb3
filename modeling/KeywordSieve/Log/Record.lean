import KeywordSieve.Json.Basic
import KeywordSieve.Log.Template
import KeywordSieve.Log.Time

/-!
Log records: a message with a level, the name of its logger and the time of its creation, and
fields. Fields come from the call, then from the labels of the program, which win over them, and
then from the context, which only fills in what is missing.
-/
namespace KeywordSieve.Log

open Text

/-- Fields by name, in the order in which they were first set. -/
abbrev Fields := List (Text × Value)

namespace Fields

def get? (key : Text) (fields : Fields) : Option Value := fields.lookup key

/-- Sets a field. A field that is there keeps its place. -/
def set (key : Text) (value : Value) : Fields → Fields
  | [] => [(key, value)]
  | (k, v) :: rest => if k = key then (k, value) :: rest else (k, v) :: set key value rest

def setAll (fields added : Fields) : Fields := added.foldl (fun fs f => fs.set f.1 f.2) fields

end Fields

inductive Fault where
  | reserved (key : Text)
  | notFields (kind : Text)
  | notCallable (kind : Text)
  | scopeField
  | time (fault : Time.Fault)
  | template (fault : Template.Fault)
  | invalidTemplate (template : Text)
  | noField (key : Text)
  | json (fault : Value.JsonFault)
  | unwritable (fault : Value.WriteFault)
  deriving DecidableEq, Repr

namespace Fault

/-- Whether a fault ends the call that logs. A record with any other fault is dropped. -/
def endsCall : Fault → Bool
  | json .depth => true
  | unwritable .depth => true
  | template (.unwritable .depth) => true
  | _ => false

/-- Fails if something keeps a value from being written. -/
def check : Option Value.WriteFault → Except Fault Unit
  | some fault => .error (.unwritable fault)
  | none => .ok ()

end Fault

def recordParts : List String :=
  ["name", "msg", "args", "levelname", "levelno", "pathname", "filename", "module", "exc_info",
    "exc_text", "stack_info", "lineno", "funcName", "created", "msecs", "relativeCreated",
    "thread", "threadName", "processName", "process", "message", "asctime"]

/-- Whether a name belongs to a part of a record, so that no field can have it. -/
def isReserved (key : Text) : Bool := recordParts.any (·.toList == key)

/-- The name of the operation that forms the message; a field of this name would hide it. -/
def messageOperation : Text := "getMessage"

/-- Whether a field is never written. -/
def isHidden (key : Text) : Bool := key == "taskName".toList || key.head? == some '_'

/-- How deep values may be nested where a record is written, as far as the stack goes there: in what
fills a template, in a field that stands as text, and in one that stands as JSON. -/
structure Room where
  template : Nat := 900
  text : Nat := 900
  json : Nat := 900
  deriving DecidableEq, Repr

/-- When a call logs, in microseconds from the beginning of 1970, and how much room there is then. -/
structure Moment where
  time : Int
  room : Room := {}
  deriving DecidableEq, Repr

structure Trouble where
  kind : Text
  text : Text
  deriving DecidableEq, Repr

def Trouble.message (t : Trouble) : Text :=
  if t.text.isEmpty then t.kind else t.kind ++ ": " ++ t.text

/-- `created` is in microseconds from the beginning of 1970. -/
structure Record where
  logger : Text
  level : Int
  message : Text
  arguments : List Value := []
  created : Int
  room : Room := {}
  trouble : Option Trouble := none
  fields : Fields := []
  deriving Repr

/-- What the program adds to each record. A missing label is added as null. -/
structure Labels where
  service : Option Text := some "feedfilter"
  environment : Option Text := some "local"
  deriving DecidableEq, Repr

def levelName (level : Int) : Text :=
  if level = 0 then "NOTSET"
  else if level = 10 then "DEBUG"
  else if level = 20 then "INFO"
  else if level = 30 then "WARNING"
  else if level = 40 then "ERROR"
  else if level = 50 then "CRITICAL"
  else "Level " ++ ofInt level

namespace Record

/-- The record with the fields of its call, none of which may have a reserved name. A record has a
level with a name. -/
def withExtra (extra : Fields) (r : Record) : Except Fault Record :=
  if Value.isTooLong r.level then .error (.unwritable .digits)
  else match extra.find? (isReserved ·.1) with
    | some (key, _) => .error (.reserved key)
    | none => .ok { r with fields := r.fields.setAll extra }

/-- The record with the labels, which replace fields of the same name. -/
def withLabels (labels : Labels) (r : Record) : Record :=
  let value (label : Option Text) : Value := (label.map .text).getD .null
  { r with
    fields := (r.fields.set "service" (value labels.service)).set "environment"
      (value labels.environment) }

/-- Whether a record has something under a name already. -/
def has (r : Record) (key : Text) : Bool :=
  isReserved key || key == messageOperation || (r.fields.get? key).isSome

/-- The record with the fields of the context that it does not have. -/
def withContext (context : Fields) (r : Record) : Record :=
  context.foldl (fun r f => if r.has f.1 then r else { r with fields := r.fields.set f.1 f.2 }) r

def shownFields (r : Record) : Fields := r.fields.filter (!isHidden ·.1)

/-- What fills the message: a single mapping that is not empty fills it by name. -/
def source (r : Record) : Template.Source :=
  match r.arguments with
  | [.mapping (e :: more)] =>
    .named (fun key => Value.lookup key (e :: more)) (some (.mapping (e :: more)))
  | arguments => .ordered arguments

/-- The message with its arguments. Without arguments it stands as it is. -/
def text (r : Record) : Except Fault Text :=
  match r.fields.get? messageOperation with
  | some v => .error (.notCallable v.fullTypeName)
  | none =>
    if r.arguments.isEmpty then .ok r.message
    else (Template.fill r.room.template r.source r.message).mapError .template

end Record

def Fault.message : Fault → Text
  | reserved key => quoted ("Attempt to overwrite " ++ quoted key ++ " in LogRecord")
  | notFields kind => '\'' :: kind ++ "' object is not a mapping"
  | notCallable kind => '\'' :: kind ++ "' object is not callable"
  | scopeField => "log_context.__init__() got multiple values for argument 'self'"
  | time fault => fault.message
  | template fault => fault.message
  | invalidTemplate t => "Invalid format '" ++ t ++ "' for '%' style"
  | noField key => "Formatting field not found in record: " ++ quoted key
  | json fault => fault.message
  | unwritable fault => fault.message

end KeywordSieve.Log
