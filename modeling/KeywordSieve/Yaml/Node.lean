import KeywordSieve.Yaml.Token.Lexer

/-!
The tree of scalars, sequences and mappings that a token list denotes. `Node.ofTokens?` reads the
one document of a text; an empty text has none.
-/
namespace KeywordSieve.Yaml

/-- `start` is the place where a node begins. -/
inductive Node where
  | scalar (start : Mark) (s : Scalar)
  | sequence (start : Mark) (items : List Node)
  | mapping (start : Mark) (entries : List (Node × Node))
  deriving Repr

namespace Node

def start : Node → Mark
  | scalar m _ => m
  | sequence m _ => m
  | mapping m _ => m

/-- The scalar that stands where nothing is written. -/
def empty (m : Mark) : Node := scalar m (.plain [])

def kindName : Node → Text
  | scalar .. => "scalar"
  | sequence .. => "sequence"
  | mapping .. => "mapping"

end Node

/-- Reading tokens gives a result and the tokens behind it. -/
abbrev Reader (α : Type) := List Token → Except Failure (α × List Token)

namespace Tokens

/-- Refuses the first token. Where no token could be read, that is the reason to give. -/
def refuse (context : Option (Context × Option Mark)) (problem : Text → Problem) :
    List Token → Except Failure α
  | [] => .error (.malformed (.at context (problem []) {}))
  | t :: _ =>
    match t.kind with
    | .broken f => .error f
    | kind => .error (.malformed (.at context (problem kind.name) t.start))

def here : List Token → Mark
  | [] => {}
  | t :: _ => t.start

/-- Whether the first token is of one of some kinds. -/
def at? (kinds : List Token.Kind) : List Token → Bool
  | [] => false
  | t :: _ => kinds.contains t.kind

/-- Passes the first token if it is of a given kind. -/
def pass? (kind : Token.Kind) : List Token → Option (Token × List Token)
  | [] => none
  | t :: rest => if t.kind = kind then some (t, rest) else none

/-- Reads a node, unless one of some tokens says that nothing is written. -/
def orEmpty (stops : List Token.Kind) (mark : Mark) (read : Reader Node) : Reader Node := fun ts =>
  if at? stops ts then .ok (.empty mark, ts) else read ts

/-- Reads the value behind a colon; without a colon it is empty. -/
def valueOf (stops : List Token.Kind) (read : Reader Node) : Reader Node := fun ts =>
  match pass? .value ts with
  | some (t, rest) => orEmpty stops t.stop read rest
  | none => .ok (.empty (here ts), ts)

def blockItems (indented : Bool) (start : Mark) (read : Reader Node) : Nat → Reader (List Node)
  | 0, ts => .ok ([], ts)
  | fuel + 1, ts =>
    match pass? .blockEntry ts with
    | some (t, rest) => do
      let stops := [.blockEntry, .blockEnd] ++ if indented then [] else [.key, .value]
      let (item, rest) ← orEmpty stops t.stop read rest
      let (items, rest) ← blockItems indented start read fuel rest
      return (item :: items, rest)
    | none =>
      if indented then
        match pass? .blockEnd ts with
        | some (_, rest) => .ok ([], rest)
        | none => refuse (some (.blockSequence, some start)) .noBlockEnd ts
      else .ok ([], ts)

def blockEntries (start : Mark) (read : Reader Node) : Nat → Reader (List (Node × Node))
  | 0, ts => .ok ([], ts)
  | fuel + 1, ts =>
    let stops : List Token.Kind := [.key, .value, .blockEnd]
    match pass? .key ts, pass? .blockEnd ts with
    | some (t, rest), _ => do
      let (key, rest) ← orEmpty stops t.stop read rest
      let (value, rest) ← valueOf stops read rest
      let (entries, rest) ← blockEntries start read fuel rest
      return ((key, value) :: entries, rest)
    | none, some (_, rest) => .ok ([], rest)
    | none, none => refuse (some (.blockMapping, some start)) .noBlockEnd ts

/-- Passes the comma in front of an entry of a flow collection, unless the entry is the first. -/
def comma (first : Bool) (context : Context) (start : Mark) (problem : Text → Problem)
    (ts : List Token) : Except Failure (List Token) :=
  if first then .ok ts
  else match pass? .flowEntry ts with
    | some (_, rest) => .ok rest
    | none => refuse (some (context, some start)) problem ts

/-- Reads the entries of a flow sequence. A key makes an entry a mapping of one pair, the parts of
which are nested deeper than an entry. -/
def flowItems (start : Mark) (read readPart : Reader Node) (first : Bool) :
    Nat → Reader (List Node)
  | 0, ts => .ok ([], ts)
  | fuel + 1, ts =>
    match pass? .flowSequenceEnd ts with
    | some (_, rest) => .ok ([], rest)
    | none => do
      let ts ← comma first .flowSequence start .noSequenceEnd ts
      match pass? .flowSequenceEnd ts, pass? .key ts with
      | some (_, rest), _ => return ([], rest)
      | none, some (t, rest) =>
        let stops : List Token.Kind := [.flowEntry, .flowSequenceEnd]
        let (key, rest) ← orEmpty (.value :: stops) t.stop readPart rest
        let (value, rest) ← valueOf stops readPart rest
        let (items, rest) ← flowItems start read readPart false fuel rest
        return (.mapping t.start [(key, value)] :: items, rest)
      | none, none =>
        let (item, rest) ← read ts
        let (items, rest) ← flowItems start read readPart false fuel rest
        return (item :: items, rest)

def flowEntries (start : Mark) (read : Reader Node) (first : Bool) :
    Nat → Reader (List (Node × Node))
  | 0, ts => .ok ([], ts)
  | fuel + 1, ts =>
    match pass? .flowMappingEnd ts with
    | some (_, rest) => .ok ([], rest)
    | none => do
      let ts ← comma first .flowMapping start .noMappingEnd ts
      match pass? .flowMappingEnd ts, pass? .key ts with
      | some (_, rest), _ => return ([], rest)
      | none, some (t, rest) =>
        let stops : List Token.Kind := [.flowEntry, .flowMappingEnd]
        let (key, rest) ← orEmpty (.value :: stops) t.stop read rest
        let (value, rest) ← valueOf stops read rest
        let (entries, rest) ← flowEntries start read false fuel rest
        return ((key, value) :: entries, rest)
      | none, none =>
        let (key, rest) ← read ts
        let (entries, rest) ← flowEntries start read false fuel rest
        return ((key, .empty (here rest)) :: entries, rest)

/-- Where a node may stand: among blocks, as the value of a block mapping, where a sequence needs
no indentation, or in a flow collection. -/
inductive Position where
  | block | blockValue | flow
  deriving DecidableEq, Repr

/-- Refuses collections that are nested too deep. -/
def tooDeep : Reader Node
  | ⟨.scalar s, start, _⟩ :: rest => .ok (.scalar start s, rest)
  | _ => .error .tooDeep

/-- Reads a node in which collections may be nested to a given depth. No collection has more than
`most` entries. -/
def node (most : Nat) : Nat → Position → Reader Node
  | 0, _, ts => tooDeep ts
  | depth + 1, position, ts =>
    let isBlock := position != .flow
    let context := if isBlock then Context.blockNode else .flowNode
    let readPart : Reader Node := match depth with
      | 0 => tooDeep
      | depth + 1 => node most depth .flow
    match ts with
    | [] => refuse none .noContent []
    | t :: rest =>
      match t.kind with
      | .scalar s => .ok (.scalar t.start s, rest)
      | .flowSequenceStart => do
        let (items, rest) ← flowItems t.start (node most depth .flow) readPart true most rest
        return (.sequence t.start items, rest)
      | .flowMappingStart => do
        let (entries, rest) ← flowEntries t.start (node most depth .flow) true most rest
        return (.mapping t.start entries, rest)
      | .blockSequenceStart =>
        if isBlock then do
          let (items, rest) ← blockItems true t.start (node most depth .block) most rest
          return (.sequence t.start items, rest)
        else refuse (some (context, some t.start)) .noContent ts
      | .blockMappingStart =>
        if isBlock then do
          let (entries, rest) ← blockEntries t.start (node most depth .blockValue) most rest
          return (.mapping t.start entries, rest)
        else refuse (some (context, some t.start)) .noContent ts
      | .blockEntry =>
        if position = .blockValue then do
          let (items, rest) ← blockItems false t.start (node most depth .block) most ts
          return (.sequence t.start items, rest)
        else refuse (some (context, some t.start)) .noContent ts
      | _ => refuse (some (context, some t.start)) .noContent ts

def directives (seen : Bool) : List Token → Except Failure (List Token)
  | [] => .ok []
  | t :: rest =>
    match t.kind with
    | .directive none => directives seen rest
    | .directive (some (major, _)) =>
      if seen then fail .repeatedVersion t.start
      else if major ≠ 1 then fail .unknownVersion t.start
      else directives true rest
    | _ => .ok (t :: rest)

/-- The start of an explicit document, behind directives; nothing at the end of the text. -/
def documentStart? (ts : List Token) : Except Failure (Option (Token × List Token)) :=
  let ts := ts.dropWhile (·.kind == .documentEnd)
  if at? [.streamEnd] ts then .ok none
  else do
    let rest ← directives false ts
    match pass? .documentStart rest with
    | some (_, behind) => return some (⟨.documentStart, here ts, here ts⟩, behind)
    | none => refuse none .noDocumentStart rest

/-- Checks that no other document follows one. -/
def ending (start : Mark) (ts : List Token) : Except Failure Unit := do
  let ts := match pass? .documentEnd ts with
    | some (_, rest) => rest
    | none => ts
  match ← documentStart? ts with
  | none => return ()
  | some (t, _) => failIn .stream start .secondDocument t.start

/-- Whether the first token is a directive. -/
def atDirective : List Token → Bool
  | ⟨.directive _, _, _⟩ :: _ => true
  | _ => false

def root (deepest : Nat) (explicit : Bool) : Reader Node := fun ts =>
  if explicit ∧ (atDirective ts ∨ at? [.documentStart, .documentEnd, .streamEnd] ts) then
    .ok (.empty (here ts), ts)
  else node (ts.length + 1) deepest .block ts

end Tokens

/-- The root of the document that the tokens denote, if there is one. -/
def Node.ofTokens? (deepest : Nat) (ts : List Token) : Except Failure (Option Node) := do
  let ts := ts.drop 1
  if Tokens.atDirective ts ∨ Tokens.at? [.documentStart, .streamEnd] ts then
    match ← Tokens.documentStart? ts with
    | none => return none
    | some (_, rest) =>
      let (n, rest) ← Tokens.root deepest true rest
      Tokens.ending n.start rest
      return some n
  else
    let (n, rest) ← Tokens.root deepest false ts
    Tokens.ending n.start rest
    return some n

end KeywordSieve.Yaml
