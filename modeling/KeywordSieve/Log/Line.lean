import KeywordSieve.Log.Record
import KeywordSieve.Log.Time
import KeywordSieve.Settings.Basic

/-!
The text of a record: a JSON object on one line, or a line for people with the fields behind the
message as `key=value`, sorted by key.
-/
namespace KeywordSieve.Log.Line

open Text

/-- What stands for a field in a JSON object: what JSON has no form for becomes text. -/
def plainField : Value → Value
  | .dateTime d => .text (d.text 'T')
  | .date d => .text d.text
  | .bytes bs => .text (quotedBytes bs)
  | .tuple vs => .text (Value.tuple vs).display
  | v => v

/-- What keeps a field that becomes text from being one. -/
def plainRefusal? (room : Nat) : Value → Option Value.WriteFault
  | .tuple vs => (Value.tuple vs).refusal? room
  | _ => none

/-- The fields of the JSON object of a record. A field of the record may replace what identifies
it, and stands in its place then. -/
def jsonFields (r : Record) : Except Fault Fields := do
  let stamp ← (Time.stamp r.created).mapError .time
  let message ← r.text
  Fault.check (r.shownFields.findSome? fun f => plainRefusal? r.room.text f.2)
  let identity : Fields :=
    [("timestamp", .text stamp), ("level", .text (levelName r.level)),
      ("logger", .text r.logger), ("message", .text message)]
  let fields := identity.setAll (r.shownFields.map fun f => (f.1, plainField f.2))
  return match r.trouble with
    | some trouble => fields.set "exc_info" (.text trouble.message)
    | none => fields

def json (r : Record) : Except Fault Text := do
  let fields ← (← jsonFields r).mapM fun f =>
    return (f.1, ← (f.2.toJson r.room.json).mapError .json)
  return (Json.object fields).render

/-- A value behind an equals sign. A text is quoted if it could be taken for several fields. -/
def valueText : Value → Text
  | .text t => if ' ' ∈ t ∨ '=' ∈ t ∨ ',' ∈ t then '"' :: t ++ ['"'] else t
  | .dateTime d => d.text 'T'
  | .bool b => if b then "true" else "false"
  | .null => "null"
  | v => v.display

/-- Whether a field is left out of a line for people. -/
def isLabel (key : Text) : Bool := key == "service".toList || key == "environment".toList

/-- The fields of a line for people, sorted by key. -/
def sortedFields (r : Record) : Fields :=
  (r.shownFields.filter (!isLabel ·.1)).mergeSort fun a b => a.1.isBefore b.1

def tail (fields : Fields) : Text :=
  fields.flatMap fun f => ' ' :: f.1 ++ '=' :: valueText f.2

def defaultTemplate : Text := "%(asctime)s [%(levelname)s] %(name)s: %(message)s"

/-- The arguments of a record as one value. -/
def argumentsOf (r : Record) : Value :=
  match r.arguments with
  | [.mapping (e :: more)] => .mapping (e :: more)
  | arguments => .tuple arguments

def timeSlot : Text := "%(asctime)"

/-- The time of a record, if a template asks for it. -/
def timeFields (template : Text) (r : Record) : Except Fault Fields :=
  if occurs timeSlot template then
    (fun clock => [("asctime".toList, .text clock)]) <$> (Time.clock r.created).mapError .time
  else .ok []

/-- The parts of a record, apart from its fields, that a template may show. -/
def parts (r : Record) (message : Text) : Fields :=
  [("name", .text r.logger), ("msg", .text r.message), ("args", argumentsOf r),
    ("levelname", .text (levelName r.level)), ("levelno", .int r.level), ("exc_text", .null),
    ("stack_info", .null), ("created", .float (Time.seconds r.created)),
    ("msecs", .float (Time.milliseconds r.created)), ("threadName", .text "MainThread"),
    ("processName", .text "MainProcess"), ("message", .text message)]

/-- Fills the template of a line. Slots have to name what they show: a record as a whole is an empty
mapping. -/
def fillTemplate (room : Nat) (shown : Fields) (template : Text) : Except Fault Text :=
  match Template.fill room (.named (shown.get? ·) (some (.mapping []))) template with
  | .ok t => .ok t
  | .error (.noKey key) => .error (.noField key)
  | .error fault => .error (.template fault)

/-- A record as a line for people. The template has to show something of it; what troubles it
stands on a line of its own. -/
def keyValue (template : Text) (r : Record) : Except Fault Text := do
  let template := if template.isEmpty then "%(message)s".toList else template
  if !Template.hasNamed template then .error (.invalidTemplate template)
  let message ← r.text
  let time ← timeFields template r
  let line ← fillTemplate r.room.template (parts r message ++ time ++ r.fields) template
  let line := match r.trouble with
    | none => line
    | some trouble =>
      (if line.getLast? = some '\n' then line else line ++ ['\n']) ++ trouble.message
  Fault.check ((sortedFields r).findSome? fun f => f.2.displayRefusal? r.room.text)
  return line ++ tail (sortedFields r)

def render (format : LogFormat) (r : Record) : Except Fault Text :=
  match format with
  | .json => json r
  | .keyValue => keyValue defaultTemplate r

end KeywordSieve.Log.Line
