import KeywordSieve.Cli.Command
import KeywordSieve.Cli.Usage
import Std.Time.DateTime.Timestamp

/-!
The program. Files, environment, clock and chance are looked up, the command runs on what was
found, and its texts are written out.
-/
namespace KeywordSieve.Cli

open Text

/-- The exit code of a command line that cannot be understood. -/
def usageExit : UInt32 := 2

/-- Codes of the system come with either sign. -/
def codeOf (code : UInt32) : Nat := min code.toNat (-code).toNat

/-- Why a file could not be opened. -/
def refusalOf : IO.Error → Refusal
  | .noFileOrDirectory .. => .absent
  | .permissionDenied .. => .denied
  | .inappropriateType _ code _ => if codeOf code = 20 then .notDirectory else .isDirectory
  | .invalidArgument _ code details =>
    if codeOf code = 36 then .nameTooLong else .other (codeOf code) details.toList
  | e => .other 5 (toString e).toList

def attempt (action : IO α) : IO (Except Refusal α) := do
  try
    return .ok (← action)
  catch e => return .error (refusalOf e)

def openPath (path : Path) : IO Opened :=
  attempt do return (← IO.FS.readBinFile (String.ofList path.text)).toList

def lookAt (path : Path) : IO (Except Refusal Unit) :=
  attempt do
    let _ ← ((← IO.currentDir) / String.ofList path.text).metadata

def findFiles (a : Arguments) : IO Files := do
  let paths := (a.items :: a.config.toList ++ Settings.candidates).filter ('\x00' ∉ ·.text)
  let looked ← paths.mapM fun path => return (path, ← lookAt path)
  let opened ← paths.mapM fun path => return (path, ← openPath path)
  return {
    look := fun path => (looked.lookup path).getD (.error .absent)
    content := fun path => (opened.lookup path).getD (.error .absent) }

def findVariables : IO Variables := do
  let names := [Variables.keywordsName, Variables.workersName, Variables.levelName,
    Variables.labelName]
  let found ← names.mapM fun name => return (name, ← IO.getEnv (String.ofList name))
  return .ofLookup fun name => (found.lookup name).join.map String.toList

/-- How deep the collections of a document may be nested. -/
def deepest : Nat := 480

/-- Texts are written as UTF-8, which shows all characters. -/
def findWorld (a : Arguments) : IO World := do
  let now ← Std.Time.Timestamp.now
  let chance ← IO.getRandomBytes 16
  let files ← findFiles a
  return {
    files
    read := Document.read deepest files
    encodes := fun _ => true
    vars := ← findVariables
    now := { time := now.toNanosecondsSinceUnixEpoch.val / 1000 }
    runId := Run.idOf chance.toList }

def writeLines (out : IO.FS.Stream) (ts : List Text) : IO Unit :=
  ts.forM fun t => out.putStrLn (String.ofList t)

/-- Runs the command that words ask for, and gives its exit code. -/
def perform (words : List Text) : IO UInt32 := do
  let out ← IO.getStdout
  let err ← IO.getStderr
  match Request.ofWords words with
  | .error e =>
    writeLines err e.lines
    return usageExit
  | .ok .help =>
    writeLines out help
    return 0
  | .ok (.run a) =>
    match (← findWorld a).run a with
    | .done o =>
      writeLines out o.output
      writeLines err o.messages
      return o.exit.toUInt32
    | .crashed c output messages =>
      writeLines out output
      writeLines err (messages ++ [c.message])
      return 1

end KeywordSieve.Cli

def main (words : List String) : IO UInt32 :=
  KeywordSieve.Cli.perform (words.map String.toList)
