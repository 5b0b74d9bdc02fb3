import KeywordSieve.Cli.Arguments
import KeywordSieve.Feed.Listing
import KeywordSieve.Run.Results
import KeywordSieve.Settings.Load

/-!
The command: settings are resolved, the journal is configured, the items are loaded and filtered,
and the results are written. What is wrong with settings or items is reported with exit code 1.
-/
namespace KeywordSieve.Cli

open Text

/-- What a command works on: the files, of which the documents are read as `read` says, the
environment, and an output that can show some characters. A text is a list of characters, so that
`read` may give characters that are used for nothing else in place of halves of surrogate pairs;
the output cannot show these. -/
structure World where
  files : Files
  read : Path → Except Document.Fault Value
  encodes : Char → Bool
  vars : Variables
  now : Log.Moment
  runId : Text

inductive Crash where
  | fatal (f : Fatal)
  | logging (f : Log.ConfigureFault)
  | record (f : Log.Fault)
  | unencodable (c : Char)
  deriving DecidableEq, Repr

def Crash.message : Crash → Text
  | fatal f => f.message
  | logging f => f.message
  | record f => f.message
  | unencodable c => "can't encode character " ++ quoted [c]

/-- The exit code and the texts written, each of which ends its line. -/
structure Outcome where
  exit : Nat
  output : List Text := []
  messages : List Text := []
  deriving DecidableEq, Repr

/-- A command that crashes has written something before. -/
inductive Ending where
  | done (o : Outcome)
  | crashed (c : Crash) (output messages : List Text)
  deriving Repr

namespace World

def logger : Text := "feedfilter.main"

def component : Text := "cli"

def call (level : Int) (message : Text) (extra : Log.Fields) : Log.Call :=
  { logger, component := some component, level, message, extra := .fields extra }

def noticeCall (n : Notice) : Log.Call := call 30 n.message [("event", .text "config.warning")]

def loadedCall (config : Option Path) (s : Settings) : Log.Call :=
  call 20 "Configuration loaded"
    [("event", .text "config.loaded"),
      ("config_path", match config with
        | some path => .text path.text
        | none => .null),
      ("has_keywords", .bool (s.keywords.any (!·.isEmpty))), ("max_workers", .int s.workers)]

def settingsErrorCall (r : Report) : Log.Call :=
  call 40 ("Configuration error: " ++ r.brief)
    [("event", .text "config.error"), ("error_type", .text "ConfigurationError")]

def itemsErrorCall (message : Text) : Log.Call :=
  call 40 ("Items file error: " ++ message)
    [("event", .text "items.error"), ("error_type", .text "ItemsFileError")]

def itemsLoadedCall (path : Path) (count : Nat) : Log.Call :=
  { logger := "feedfilter.pipeline.items"
    component := some "items".toList
    level := 10
    message := "Loaded " ++ ofNat count ++ " items from " ++ path.text
    extra := .fields
      [("event", .text "items.loaded"), ("item_count", .int count),
        ("path", .text path.text)] }

/-- What calls outside of runs write. Their fields are flat, so none of them fails. -/
def note (w : World) (j : Log.Journal) (cs : List Log.Call) : List Text :=
  (j.logAll [] w.now cs).1.map (·.text)

/-- Writes the lines of a run, as far as the output can show them. -/
def deliver (w : World) (lines messages : List Text) : Ending :=
  match lines.flatten.find? (!w.encodes ·) with
  | none => .done { exit := 0, output := lines, messages }
  | some c => .crashed (.unencodable c) (lines.takeWhile (·.all w.encodes)) messages

/-- Filters the items of a file, given what has been written so far. -/
def filterItems (w : World) (a : Arguments) (s : Settings) (j : Log.Journal)
    (before : List Text) : Ending :=
  let f := Query.Filter.compile? s.keywords
  let before := before ++ w.note j [loadedCall a.config s, Log.Event.compiled f]
  match Feed.ofDocument (w.read a.items) with
  | .error (.fatal f) => .crashed (.fatal f) [] before
  | .error (.reported fault) =>
    let message := fault.message a.items
    .done
      { exit := 1
        messages := before ++ ["Items Error: " ++ message] ++ w.note j [itemsErrorCall message] }
  | .ok items =>
    let p : Pipeline := ⟨f, s.workers⟩
    let (result, entries, _) := p.perform j .empty
      { id := w.runId
        started := w.now.time
        finished := w.now.time
        order := List.range items.length
        room := w.now.room }
      items
    let messages := before ++ w.note j [itemsLoadedCall a.items items.length] ++
      entries.map (·.text)
    match result with
    | .error f => .crashed (.record f) [] messages
    | .ok r => w.deliver (r.lines a.explain) messages

def run (w : World) (a : Arguments) : Ending :=
  let resolved := Settings.resolve w.files w.read a.config w.vars
    { query := a.query, level := a.level.map (·.name) }
  match resolved.result with
  | .error (.fatal f) => .crashed (.fatal f) [] []
  | .error (.reported e) =>
    .done
      { exit := 1
        messages := ("Configuration Error: " ++ e.report.message) ::
          w.note {} [settingsErrorCall e.report] }
  | .ok (s, environment) =>
    let c : Log.Configuration :=
      { level := environment.level.getD s.level.name
        format := s.format.name
        environment := some environment.label }
    match Log.Journal.configure c with
    | .error f => .crashed (.logging f) [] []
    | .ok j =>
      w.filterItems a s j
        (w.note j (Log.Journal.configuredCall c :: resolved.notices.map noticeCall))

end World

end KeywordSieve.Cli
