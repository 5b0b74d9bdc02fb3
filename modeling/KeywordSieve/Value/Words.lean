import KeywordSieve.Value
import KeywordSieve.Text.Utf8

/-!
Reading a value as text. Bytes are accepted if they are UTF-8; other kinds of values are not turned
into text.
-/
namespace KeywordSieve.Value

inductive WordsFault where
  | notText | notUnicode
  deriving DecidableEq, Repr

def WordsFault.message : WordsFault → Text
  | notText => "Input should be a valid string"
  | notUnicode => "Input should be a valid string, unable to parse raw data as a unicode string"

def words : Value → Except WordsFault Text
  | text t => .ok t
  | bytes bs => (Utf8.decode? bs).elim (.error .notUnicode) .ok
  | _ => .error .notText

def words? : Value → Except WordsFault (Option Text)
  | null => .ok none
  | v => some <$> v.words

end KeywordSieve.Value
