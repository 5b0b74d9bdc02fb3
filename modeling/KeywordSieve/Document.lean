import KeywordSieve.Files
import KeywordSieve.Text.Utf8
import KeywordSieve.Yaml.Value

/-!
Documents in files: a file is opened, decoded, and read as YAML. What a file cannot be read for is
either reported to the user with the name of the file, or ends the program.
-/
namespace KeywordSieve

open Text

/-- What ends the program while a document is read. -/
inductive Fatal where
  | undecodable (fault : Utf8.Fault)
  | scalar (fault : Yaml.ScalarFault)
  | tooDeep
  | nullCharacter
  | refused (r : Refusal) (path : Path)
  | unwritable
  | other (message : Text)
  deriving DecidableEq, Repr

def Yaml.ScalarFault.message : Yaml.ScalarFault → Text
  | calendar fault => fault.message
  | noDigits base => "invalid literal for int() with base " ++ ofNat base ++ ": ''"
  | tooManyDigits count =>
    "Exceeds the limit (4300 digits) for integer string conversion: value has " ++ ofNat count ++
      " digits; use sys.set_int_max_str_digits() to increase the limit"
  | fractionOfTooManyParts => "int too large to convert to float"
  | codePoint => "chr() arg not in range(0x110000)"
  | codeWord => "Python int too large to convert to C int"
  | surrogate => "surrogates not allowed"

def Fatal.message : Fatal → Text
  | undecodable fault => fault.message
  | scalar fault => fault.message
  | tooDeep => []
  | nullCharacter => "embedded null byte"
  | refused r path => r.message path
  | unwritable => Value.unwritableMessage
  | other message => message

namespace Document

inductive Fault where
  | refused (r : Refusal)
  | malformed (e : Yaml.Error)
  | fatal (f : Fatal)
  deriving DecidableEq, Repr

/-- The bytes of a file. No file has a null character in its name. -/
def openAt (files : Files) (path : Path) : Except Fault (List UInt8) :=
  if '\x00' ∈ path.text then .error (.fatal .nullCharacter)
  else (files.content path).mapError .refused

/-- A text without a value is malformed, or ends the program. -/
def Fault.ofFailure : Yaml.Failure → Fault
  | .malformed e => .malformed e
  | .scalar fault => .fatal (.scalar fault)
  | .unread part => .fatal (.other part.message)
  | .tooDeep => .fatal .tooDeep
  | .undecodable fault => .fatal (.undecodable fault)

/-- The value that the bytes of a file denote. If they are not all text, the pages before the fault
may be malformed themselves. -/
def ofBytes (deepest : Nat) (bytes : List UInt8) : Except Fault Value :=
  match Utf8.decode? bytes with
  | some t => (Yaml.read deepest (unifyLines t)).mapError .ofFailure
  | none =>
    let (t, fault) := Pages.readable bytes
    .error (.ofFailure (Yaml.failureBeforeFault deepest fault t))

def read (deepest : Nat) (files : Files) (path : Path) : Except Fault Value := do
  ofBytes deepest (← openAt files path)

end Document

end KeywordSieve
