import KeywordSieve.Settings.Basic
import KeywordSieve.Files
import KeywordSieve.Unicode.Digit

/-!
The command line. An option may be cut short as long as it stays unambiguous, and its value may
follow an equals sign. A word that looks like an option is never the value of one, unless it has a
space in it or is a negative number.
-/
namespace KeywordSieve.Cli

open Text

inductive Flag where
  | help | items | config | query | explain | level
  deriving DecidableEq, Repr

namespace Flag

/-- All spellings, in the order in which messages list them. -/
def spellings : List (Text × Flag) :=
  [("-h", help), ("--help", help), ("--items", items), ("--config", config), ("--query", query),
    ("--explain", explain), ("--log-level", level)]

def spelled? (t : Text) : Option Flag := spellings.lookup t

def name : Flag → Text
  | help => "-h/--help"
  | items => "--items"
  | config => "--config"
  | query => "--query"
  | explain => "--explain"
  | level => "--log-level"

end Flag

/-- What is asked for. Settings come from a default file if no file is asked for. -/
structure Arguments where
  items : Path
  config : Option Path := none
  query : Option Text := none
  explain : Bool := false
  level : Option LogLevel := none
  deriving DecidableEq, Repr

inductive UsageError where
  | ambiguous (given : Text) (candidates : List Text)
  | noValue (f : Flag)
  | unwantedValue (f : Flag) (value : Text)
  | noLevel (value : Text)
  | noItems
  | unrecognized (words : List Text)
  deriving DecidableEq, Repr

def UsageError.message : UsageError → Text
  | ambiguous given candidates =>
    "ambiguous option: " ++ given ++ " could match " ++ joinWith ", " candidates
  | noValue f => "argument " ++ f.name ++ ": expected one argument"
  | unwantedValue f value =>
    "argument " ++ f.name ++ ": ignored explicit argument " ++ quoted value
  | noLevel value =>
    "argument " ++ Flag.level.name ++ ": invalid choice: " ++ quoted value ++ " (choose from " ++
      joinWith ", " (LogLevel.all.map (quoted ·.name)) ++ ")"
  | noItems => "the following arguments are required: " ++ Flag.items.name
  | unrecognized words => "unrecognized arguments: " ++ joinWith " " words

/-- A word of the command line: a value, or an option with the value behind its equals sign. What is
joined to `-h`, with an equals sign or without one, is read as letters. -/
inductive Word where
  | value (t : Text)
  | separator
  | option (f : Flag) (joined : Option Text)
  | letters (joined : Text)
  | unknown (t : Text)
  deriving DecidableEq, Repr

namespace Word

/-- The parts of a text in front of and behind its first equals sign. -/
def splitEquals (t : Text) : Text × Option Text :=
  match t.dropWhile (· ≠ '=') with
  | [] => (t, none)
  | _ :: joined => (t.takeWhile (· ≠ '='), some joined)

/-- The options that a word may be short for, with their spellings. -/
def candidates (t : Text) : List (Text × Word) :=
  if "--".toList.isPrefixOf t then
    let (start, joined) := splitEquals t
    (Flag.spellings.filter (start.isPrefixOf ·.1)).map fun s => (s.1, .option s.2 joined)
  else
    (Flag.spellings.filter (·.1 = t.take 2)).map fun s => (s.1, .letters (t.drop 2))

def isDigit (c : Char) : Bool := (Unicode.digit? c).isSome

/-- Whether a word is a negative number, perhaps with a fraction. -/
def isNegativeNumber : Text → Bool
  | '-' :: rest =>
    let body := if rest.getLast? = some '\n' then rest.dropLast else rest
    match body.dropWhile isDigit with
    | [] => !body.isEmpty
    | '.' :: fraction => !fraction.isEmpty && fraction.all isDigit
    | _ => false
  | _ => false

/-- What a word is that begins with a dash and is no spelling of an option. -/
def classifyDashed (t : Text) : Except UsageError Word :=
  match candidates t with
  | [(_, word)] => .ok word
  | [] => .ok (if isNegativeNumber t || t.contains ' ' then .value t else .unknown t)
  | several => .error (.ambiguous t (several.map (·.1)))

/-- What a word is, unless it stands behind the separator. -/
def classify (t : Text) : Except UsageError Word :=
  if t.head? ≠ some '-' ∨ t.length = 1 then .ok (.value t)
  else match Flag.spelled? t, splitEquals t with
    | some f, _ => .ok (.option f none)
    | none, (start, some joined) =>
      match Flag.spelled? start with
      | some f => .ok (if start.length = 2 then .letters joined else .option f (some joined))
      | none => classifyDashed t
    | none, _ => classifyDashed t

/-- What the words of a command line are. Behind the separator all are values. -/
def classifyAll : List Text → Except UsageError (List Word)
  | [] => .ok []
  | t :: rest =>
    if t = "--".toList then .ok (.separator :: rest.map .value)
    else do
      let word ← classify t
      return word :: (← classifyAll rest)

end Word

structure Draft where
  items : Option Path := none
  config : Option Path := none
  query : Option Text := none
  explain : Bool := false
  level : Option LogLevel := none
  extra : List Text := []
  deriving Repr

inductive Request where
  | help
  | run (a : Arguments)
  deriving Repr

namespace Draft

def set (d : Draft) (f : Flag) (value : Text) : Except UsageError Draft :=
  match f with
  | .items => .ok { d with items := some (.ofText value) }
  | .config => .ok { d with config := some (.ofText value) }
  | .query => .ok { d with query := some value }
  | .level =>
    match LogLevel.ofName? value with
    | some level => .ok { d with level := some level }
    | none => .error (.noLevel value)
  | .help => .ok d
  | .explain => .ok { d with explain := true }

def leaveOver (d : Draft) (t : Text) : Draft := { d with extra := d.extra ++ [t] }

def finish (d : Draft) : Except UsageError Request :=
  match d.items, d.extra with
  | none, _ => .error .noItems
  | some items, [] => .ok <| .run
      { items
        config := d.config
        query := d.query
        explain := d.explain
        level := d.level }
  | some _, extra => .error (.unrecognized extra)

/-- What letters joined to `-h` ask for: each has to be an `h` again. -/
def readLetters : Text → Except UsageError Request
  | ['h'] => .ok .help
  | 'h' :: rest => readLetters rest
  | t => .error (.unwantedValue .help t)

def read (d : Draft) : List Word → Except UsageError Request
  | [] => d.finish
  | .value t :: rest => (d.leaveOver t).read rest
  | .separator :: rest => (d.leaveOver "--").read rest
  | .unknown t :: rest => (d.leaveOver t).read rest
  | .option .help none :: _ => .ok .help
  | .option .help (some joined) :: _ => .error (.unwantedValue .help joined)
  | .letters joined :: _ => readLetters joined
  | .option .explain none :: rest => { d with explain := true }.read rest
  | .option .explain (some joined) :: _ => .error (.unwantedValue .explain joined)
  | .option f (some joined) :: rest => do (← d.set f joined).read rest
  | .option f none :: .value t :: rest => do (← d.set f t).read rest
  | .option f none :: _ => .error (.noValue f)

end Draft

def Request.ofWords (words : List Text) : Except UsageError Request := do
  Draft.read {} (← Word.classifyAll words)

end KeywordSieve.Cli
