import KeywordSieve.Yaml.Token.Scalar

/-!
Reading a YAML text as tokens. A token may turn out to be a key only when a colon follows, so
tokens from such a one on wait in a queue until the colon comes, or until it cannot come any more:
a key is on one line and not longer than 1024 characters.
-/
namespace KeywordSieve.Yaml

open Cursor

/-- A token that is a key if a colon follows: its number, whether only a key can stand there, and
where it begins. -/
structure PossibleKey where
  number : Nat
  required : Bool
  mark : Mark
  deriving DecidableEq, Repr

/-- `taken` counts the tokens that have left the queue. `key` is the possible key of the innermost
open flow collection, or of the block if there is none, and `outerKeys` are those around it,
innermost first. Block collections have their `indents`, innermost first. With a `barrier` the text
goes on, and the barrier is the failure of reading on. -/
structure Lexer where
  cursor : Cursor
  queue : List Token := []
  taken : Nat := 0
  indent : Int := -1
  indents : List Int := []
  keyAllowed : Bool := true
  key : Option PossibleKey := none
  outerKeys : List (Option PossibleKey) := []
  finished : Bool := false
  barrier : Option Failure := none
  deriving Repr

namespace Lexer

def mark (l : Lexer) : Mark := l.cursor.mark

def inFlow (l : Lexer) : Bool := !l.outerKeys.isEmpty

def push (kind : Token.Kind) (start stop : Mark) (l : Lexer) : Lexer :=
  { l with queue := l.queue ++ [⟨kind, start, stop⟩] }

/-- Puts a token without extent in front of the one with a given number. -/
def insertAt (number : Nat) (kind : Token.Kind) (mark : Mark) (l : Lexer) : Lexer :=
  { l with queue := l.queue.insertIdx (number - l.taken) ⟨kind, mark, mark⟩ }

/-- Passes some characters, which are one token. -/
def pushFixed (length : Nat) (kind : Token.Kind) (l : Lexer) : Lexer :=
  let stop := l.cursor.skip length
  { l.push kind l.mark stop.mark with cursor := stop }

/-- Whether a possible key cannot become a key any more. -/
def isStale (l : Lexer) (k : PossibleKey) : Bool :=
  k.mark.line != l.mark.line || 1024 + k.mark.index < l.mark.index

def dropKey (l : Lexer) : Except Failure Lexer :=
  match l.key with
  | some k =>
    if k.required then failIn .simpleKey k.mark .keyWithoutValue l.mark
    else .ok { l with key := none }
  | none => .ok l

/-- Gives up the possible keys that have gone stale. -/
def dropStale (l : Lexer) : Except Failure Lexer :=
  let keys := (l.key :: l.outerKeys).reduceOption
  match keys.find? fun k => l.isStale k && k.required with
  | some k => failIn .simpleKey k.mark .keyWithoutValue l.mark
  | none => .ok
      { l with
        key := l.key.filter (!l.isStale ·)
        outerKeys := l.outerKeys.map (Option.filter (!l.isStale ·)) }

/-- Makes the next token a possible key, if one is allowed here. -/
def offerKey (l : Lexer) : Except Failure Lexer :=
  if l.keyAllowed then do
    let required := !l.inFlow && l.indent == l.mark.column
    let l ← l.dropKey
    return { l with key := some ⟨l.taken + l.queue.length, required, l.mark⟩ }
  else .ok l

/-- Ends the block collections that are indented more than a column. -/
def unwindFrom (column : Int) (l : Lexer) : List Int → Lexer
  | [] => l
  | outer :: indents =>
    if column < l.indent then
      unwindFrom column { l.push .blockEnd l.mark l.mark with indent := outer, indents } indents
    else l

def unwind (column : Int) (l : Lexer) : Lexer :=
  if l.inFlow then l else unwindFrom column l l.indents

/-- Begins a block collection at a column, if it is indented more than the one around it. -/
def deepen (column : Nat) (l : Lexer) : Option Lexer :=
  if l.indent < column then some { l with indent := column, indents := l.indent :: l.indents }
  else none

/-- Passes spaces, comments and line ends. A line end allows a key outside flow collections. -/
def blanks (inFlow comment fresh : Bool) : Mark → Text → Bool × Cursor
  | mark, [] => (fresh, ⟨[], mark⟩)
  | mark, c :: rest =>
    if isBreak c then blanks inFlow false (fresh || !inFlow) (mark.past c) rest
    else if comment || c == ' ' then blanks inFlow comment fresh (mark.past c) rest
    else if c = '#' then blanks inFlow true fresh (mark.past c) rest
    else (fresh, ⟨c :: rest, mark⟩)

def skipBlanks (l : Lexer) : Lexer :=
  let start :=
    if l.mark.index = 0 ∧ l.cursor.head? = some byteOrderMark then l.cursor.next else l.cursor
  let (fresh, cursor) := blanks l.inFlow false l.keyAllowed start.mark start.ahead
  { l with keyAllowed := fresh, cursor }

/-- Ends all block collections; no key may follow. -/
def close (l : Lexer) : Except Failure Lexer := do
  let l ← (l.unwind (-1)).dropKey
  return { l with keyAllowed := false }

def streamEnd (l : Lexer) : Except Failure Lexer := do
  let l ← l.close
  return { l.push .streamEnd l.mark l.mark with key := none, outerKeys := [], finished := true }

def documentMarker (kind : Token.Kind) (l : Lexer) : Except Failure Lexer :=
  return (← l.close).pushFixed 3 kind

/-- A number of a version, behind the mark of its directive. -/
def versionNumber (start : Mark) (c : Cursor) : Except Failure (Nat × Cursor) :=
  let digits := c.ahead.takeWhile Char.isDigit
  if digits.isEmpty then failIn .directive start (.versionDigit c.head?) c.mark
  else .ok (digits.foldl (fun n d => 10 * n + (d.toNat - '0'.toNat)) 0, c.skip digits.length)

def version (start : Mark) (c : Cursor) : Except Failure ((Nat × Nat) × Cursor) := do
  let (major, c) ← versionNumber start (c.skipWhile (· = ' '))
  if c.head? ≠ some '.' then failIn .directive start (.versionPoint c.head?) c.mark
  let (minor, c) ← versionNumber start c.next
  if c.head? = some '\t' ∨ !endsWord c.head? then
    failIn .directive start (.versionEnd c.head?) c.mark
  return ((major, minor), c)

def isNameChar (c : Char) : Bool := c.isAlphanum || c == '-' || c == '_'

def directive (l : Lexer) : Except Failure Lexer := do
  let l ← l.close
  let start := l.mark
  let name := l.cursor.next.ahead.takeWhile isNameChar
  let c := l.cursor.next.skip name.length
  if name.isEmpty ∨ c.head? = some '\t' ∨ !endsWord c.head? then
    failIn .directive start (.directiveName c.head?) c.mark
  if name = "TAG".toList then .error (.unread .tag)
  let (version?, c) ← if name = "YAML".toList then do
      let (v, c) ← version start c
      pure (some v, c)
    else pure (none, c.skipWhile (!isBreak ·))
  let after ← Block.restOfLine .directive start c
  return { l.push (.directive version?) start c.mark with cursor := after }

def flowStart (kind : Token.Kind) (l : Lexer) : Except Failure Lexer := do
  let l ← l.offerKey
  let outerKeys := l.key :: l.outerKeys
  return { l with key := none, outerKeys, keyAllowed := true }.pushFixed 1 kind

def flowEnd (kind : Token.Kind) (l : Lexer) : Except Failure Lexer := do
  let l ← l.dropKey
  let (key, outerKeys) := (l.outerKeys.head?.join, l.outerKeys.tail)
  return { l with key, outerKeys, keyAllowed := false }.pushFixed 1 kind

def flowEntry (l : Lexer) : Except Failure Lexer := do
  let l ← { l with keyAllowed := true }.dropKey
  return l.pushFixed 1 .flowEntry

/-- Begins a block collection at the cursor, unless it continues one or stands in a flow. -/
def beginBlock (kind : Token.Kind) (refusal : Problem) (l : Lexer) : Except Failure Lexer :=
  if l.inFlow then .ok l
  else if !l.keyAllowed then fail refusal l.mark
  else match l.deepen l.mark.column with
    | some l => .ok (l.push kind l.mark l.mark)
    | none => .ok l

def blockEntry (l : Lexer) : Except Failure Lexer := do
  let l ← l.beginBlock .blockSequenceStart .entryNotAllowed
  let l ← { l with keyAllowed := true }.dropKey
  return l.pushFixed 1 .blockEntry

def explicitKey (l : Lexer) : Except Failure Lexer := do
  let l ← l.beginBlock .blockMappingStart .keyNotAllowed
  let l ← { l with keyAllowed := !l.inFlow }.dropKey
  return l.pushFixed 1 .key

/-- A colon makes the possible key a key, which may begin a mapping. -/
def value (l : Lexer) : Except Failure Lexer :=
  match l.key with
  | some k =>
    let l := { l with key := none, keyAllowed := false }.insertAt k.number .key k.mark
    let l := match if l.inFlow then none else l.deepen k.mark.column with
      | some deeper => deeper.insertAt k.number .blockMappingStart k.mark
      | none => l
    .ok (l.pushFixed 1 .value)
  | none => do
    let l ← l.beginBlock .blockMappingStart .valueNotAllowed
    return { l with keyAllowed := !l.inFlow }.pushFixed 1 .value

def blockScalar (fold : Bool) (l : Lexer) : Except Failure Lexer := do
  let l ← { l with keyAllowed := true }.dropKey
  let (t, after) ← Block.read fold l.indent l.cursor
  return { l.push (.scalar (.verbatim (t.map Char.toNat))) l.mark after.mark with cursor := after }

def quotedScalar (double : Bool) (l : Lexer) : Except Failure Lexer := do
  let l ← l.offerKey
  let (codes, after) ← Quoted.read double l.cursor
  return { l.push (.scalar (.verbatim codes)) l.mark after.mark with
    keyAllowed := false, cursor := after }

def plainScalar (l : Lexer) : Except Failure Lexer := do
  let l ← l.offerKey
  let (t, fresh, after) := Plain.read l.inFlow (l.indent + 1) l.cursor
  return { l.push (.scalar (.plain t)) l.mark after.mark with keyAllowed := fresh, cursor := after }

/-- Whether a plain scalar may begin with `c`, given the character after it. -/
def beginsPlain (inFlow : Bool) (c : Char) (after : Option Char) : Bool :=
  !(endsWord (some c) || "-?:,[]\x7b\x7d#&*!|>'\"%@`".toList.contains c) ||
    (!endsWord after && (c == '-' || (!inFlow && (c == '?' || c == ':'))))

/-- What begins with a character that begins no token here. -/
def refusal (c : Char) (mark : Mark) : Failure :=
  match c with
  | '&' => .unread .anchor
  | '*' => .unread .reference
  | '!' => .unread .tag
  | _ => .malformed (.at (some (.nextToken, none)) (.cannotStart (some c)) mark)

def fetch (l : Lexer) : Except Failure Lexer := do
  let l ← l.skipBlanks.dropStale
  let l := l.unwind l.mark.column
  let after := l.cursor.second?
  let indicates := l.inFlow || endsWord after
  let atMarker := l.mark.column == 0 && l.cursor.atDocumentMarker
  match l.cursor.head? with
  | none => l.streamEnd
  | some c =>
    if c = '%' ∧ l.mark.column = 0 then l.directive
    else if c = '-' ∧ atMarker then l.documentMarker .documentStart
    else if c = '.' ∧ atMarker then l.documentMarker .documentEnd
    else if c = '[' then l.flowStart .flowSequenceStart
    else if c = '\x7b' then l.flowStart .flowMappingStart
    else if c = ']' then l.flowEnd .flowSequenceEnd
    else if c = '\x7d' then l.flowEnd .flowMappingEnd
    else if c = ',' then l.flowEntry
    else if c = '-' ∧ endsWord after then l.blockEntry
    else if c = '?' ∧ indicates then l.explicitKey
    else if c = ':' ∧ indicates then l.value
    else if c = '|' ∧ !l.inFlow then l.blockScalar false
    else if c = '>' ∧ !l.inFlow then l.blockScalar true
    else if c = '\'' then l.quotedScalar false
    else if c = '"' then l.quotedScalar true
    else if beginsPlain l.inFlow c after then l.plainScalar
    else .error (refusal c l.mark)

/-- Whether a failure concerns the end of the text ahead. -/
def meetsEnd (l : Lexer) : Failure → Bool
  | .malformed (.at _ _ mark) => l.mark.index + l.cursor.ahead.length ≤ mark.index
  | _ => false

def step (l : Lexer) : Except Failure Lexer :=
  match l.barrier with
  | none => l.fetch
  | some barrier =>
    match l.fetch with
    | .error f => .error (if l.meetsEnd f then barrier else f)
    | .ok after => if after.cursor.ahead.isEmpty then .error barrier else .ok after

/-- The number of the first token that may still become a key. -/
def firstPossibleKey (l : Lexer) : Option Nat :=
  ((l.key :: l.outerKeys).reduceOption.map (·.number)).min?

/-- The tokens that need not wait, and the lexer without them. -/
def release (l : Lexer) : List Token × Lexer :=
  let count := match l.firstPossibleKey with
    | some number => number - l.taken
    | none => l.queue.length
  (l.queue.take count, { l with queue := l.queue.drop count, taken := l.taken + count })

def run : Nat → Lexer → List Token
  | 0, l => l.queue
  | fuel + 1, l =>
    match l.step with
    | .error f => [⟨.broken f, l.mark, l.mark⟩]
    | .ok l =>
      if l.finished then l.queue
      else match l.dropStale with
        | .error f => [⟨.broken f, l.mark, l.mark⟩]
        | .ok l => l.release.1 ++ run fuel l.release.2

end Lexer

/-- The tokens of a text in front of a barrier, if there is one. If the text cannot be read to the
end, the last token says why. -/
def tokensBefore (barrier : Option Failure) (t : Text) : List Token :=
  ⟨.streamStart, {}, {}⟩ :: Lexer.run (t.length + 1) { cursor := ⟨t, {}⟩, taken := 1, barrier }

def tokens : Text → List Token := tokensBefore none

end KeywordSieve.Yaml
