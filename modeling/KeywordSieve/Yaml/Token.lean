import KeywordSieve.Yaml.Error

/-!
Tokens of a YAML text. Anchors, aliases and tags are recognized, but not read.
-/
namespace KeywordSieve.Yaml

/-- What a scalar says. The kind of a plain one is found by its form; any other is a text, given
by its code points, since escapes may denote unpaired surrogates. -/
inductive Scalar where
  | plain (t : Text)
  | verbatim (codes : List Nat)
  deriving DecidableEq, Repr

namespace Token

/-- `broken` stands where no token can be read, and is the last one. -/
inductive Kind where
  | streamStart | streamEnd
  | directive (version : Option (Nat × Nat))
  | documentStart | documentEnd
  | blockSequenceStart | blockMappingStart | blockEnd
  | flowSequenceStart | flowMappingStart | flowSequenceEnd | flowMappingEnd
  | key | value | blockEntry | flowEntry
  | scalar (s : Scalar)
  | broken (f : Failure)
  deriving DecidableEq, Repr

def Kind.name : Kind → Text
  | streamStart => "<stream start>"
  | streamEnd => "<stream end>"
  | directive _ => "<directive>"
  | documentStart => "<document start>"
  | documentEnd => "<document end>"
  | blockSequenceStart => "<block sequence start>"
  | blockMappingStart => "<block mapping start>"
  | blockEnd => "<block end>"
  | flowSequenceStart => "["
  | flowMappingStart => "\x7b"
  | flowSequenceEnd => "]"
  | flowMappingEnd => "\x7d"
  | key => "?"
  | value => ":"
  | blockEntry => "-"
  | flowEntry => ","
  | scalar _ => "<scalar>"
  | broken _ => []

end Token

structure Token where
  kind : Token.Kind
  start : Mark
  stop : Mark
  deriving DecidableEq, Repr

end KeywordSieve.Yaml
