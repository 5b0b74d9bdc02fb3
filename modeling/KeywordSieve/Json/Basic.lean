import KeywordSieve.Value

/-!
JSON values and their text on one line. Fields of an object keep their order. Characters beyond
ASCII are written as they are; only quotes, backslashes and control characters are escaped.
-/
namespace KeywordSieve

open Text

inductive Json where
  | null
  | bool (b : Bool)
  | int (n : Int)
  | double (x : Double)
  | text (t : Text)
  | array (elements : List Json)
  | object (fields : List (Text × Json))
  deriving Repr, Inhabited

namespace Json

def escape (c : Char) : Text :=
  if c = '"' then ['\\', '"']
  else if c = '\\' then ['\\', '\\']
  else if c = '\n' then ['\\', 'n']
  else if c = '\r' then ['\\', 'r']
  else if c = '\t' then ['\\', 't']
  else if c = '\x08' then ['\\', 'b']
  else if c = '\x0c' then ['\\', 'f']
  else if c.toNat < 0x20 then '\\' :: 'u' :: hexDigits 4 c.toNat
  else [c]

def string (t : Text) : Text := '"' :: t.flatMap escape ++ ['"']

/-- The text of a double, with the words that JSON readers know for what is not finite. -/
def doubleText : Double → Text
  | .nan => "NaN"
  | .infinite false => "Infinity"
  | .infinite true => "-Infinity"
  | x => x.text

mutual

def render : Json → Text
  | null => "null"
  | bool b => if b then "true" else "false"
  | int n => ofInt n
  | double x => doubleText x
  | text t => string t
  | array elements => '[' :: joinWith ", " (renderAll elements) ++ [']']
  | object fields => '\x7b' :: joinWith ", " (renderFields fields) ++ ['\x7d']

def renderAll : List Json → List Text
  | [] => []
  | j :: rest => render j :: renderAll rest

def renderFields : List (Text × Json) → List Text
  | [] => []
  | (key, j) :: rest => (string key ++ ": " ++ render j) :: renderFields rest

end

end Json

namespace Value

/-- Why a value has no JSON form: its kind has none, or that of a key in it, an integer has too many
digits, or collections are nested deeper than the stack allows. -/
inductive JsonFault where
  | kind (name : Text)
  | key (name : Text)
  | digits
  | depth
  deriving DecidableEq, Repr

def JsonFault.message : JsonFault → Text
  | kind name => "Object of type " ++ name ++ " is not JSON serializable"
  | key name => "keys must be str, int, float, bool or None, not " ++ name
  | digits => unwritableMessage
  | depth => "maximum recursion depth exceeded while encoding a JSON object"

def intForm (n : Int) (form : α) : Except JsonFault α :=
  if isTooLong n then .error .digits else .ok form

/-- The field name that a key of a mapping becomes. -/
def fieldName : Value → Except JsonFault Text
  | text t => .ok t
  | null => .ok "null"
  | bool b => .ok (if b then "true" else "false")
  | int n => intForm n (ofInt n)
  | float x => .ok (Json.doubleText x)
  | v => .error (.key v.typeName)

mutual

/-- The JSON form of a value in which collections are nested to a given depth. Tuples become arrays;
bytes, dates and times have no JSON form. -/
def toJson (room : Nat) : Value → Except JsonFault Json
  | null => .ok .null
  | bool b => .ok (.bool b)
  | int n => intForm n (.int n)
  | float x => .ok (.double x)
  | text t => .ok (.text t)
  | list vs =>
    match room with
    | 0 => .error .depth
    | inner + 1 => .array <$> allToJson inner vs
  | tuple vs =>
    match room with
    | 0 => .error .depth
    | inner + 1 => .array <$> allToJson inner vs
  | mapping entries =>
    match room with
    | 0 => .error .depth
    | inner + 1 => .object <$> entriesToJson inner entries
  | bytes _ => .error (.kind "bytes")
  | date _ => .error (.kind "date")
  | dateTime _ => .error (.kind "datetime")

def allToJson (room : Nat) : List Value → Except JsonFault (List Json)
  | [] => .ok []
  | v :: rest => do
    let j ← toJson room v
    return j :: (← allToJson room rest)

def entriesToJson (room : Nat) : List (Value × Value) → Except JsonFault (List (Text × Json))
  | [] => .ok []
  | (key, v) :: rest => do
    let name ← fieldName key
    let j ← toJson room v
    return (name, j) :: (← entriesToJson room rest)

end

end Value

end KeywordSieve
