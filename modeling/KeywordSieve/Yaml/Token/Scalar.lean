import KeywordSieve.Yaml.Token

/-!
Scalars of a YAML text: plain ones, quoted ones, and blocks of lines. Line ends inside a scalar are
folded: a single one becomes a space, of several the first is dropped.
-/
namespace KeywordSieve.Yaml

open Cursor

def isSpaceOrTab (c : Char) : Bool := c == ' ' || c == '\t'

namespace Plain

/-- Whether a plain scalar ends in front of `c`, given the character after it. -/
def ends (inFlow : Bool) (c : Char) (after : Option Char) : Bool :=
  endsWord (some c) ||
    (c == ':' && (endsWord after || (inFlow && after.any (",[]\x7b\x7d".toList.contains ·)))) ||
    (inFlow && ",?[]\x7b\x7d".toList.contains c)

/-- The piece of a plain scalar up to white space. -/
def piece (inFlow : Bool) : Text → Text
  | [] => []
  | c :: rest => if ends inFlow c rest.head? then [] else c :: piece inFlow rest

/-- The line ends and leading spaces behind a line end; nothing if a document marker follows. -/
def breaks (lineStart : Bool) : Mark → Text → Option Text × Cursor
  | mark, [] => (some [], ⟨[], mark⟩)
  | mark, c :: rest =>
    if lineStart && Cursor.atDocumentMarker ⟨c :: rest, mark⟩ then (none, ⟨c :: rest, mark⟩)
    else if c = ' ' then breaks false (mark.past c) rest
    else if isBreak c then
      let (more, after) := breaks true (mark.past c) rest
      (more.map (breakText c :: ·), after)
    else (some [], ⟨c :: rest, mark⟩)

/-- What stands for the line end `first` and those that follow it. -/
def folded (first : Char) (more : Text) : Text :=
  if breakText first ≠ '\n' then breakText first :: more
  else if more.isEmpty then [' '] else more

/-- The white space behind a piece, folded, and whether a line ends in it. -/
def gap (c : Cursor) : Text × Bool × Cursor :=
  let spaces := c.ahead.takeWhile (· = ' ')
  let c := c.skip spaces.length
  match c.head? with
  | some ch =>
    if isBreak ch then
      match breaks true c.next.mark c.next.ahead with
      | (some more, after) => (folded ch more, true, after)
      | (none, after) => ([], true, after)
    else (spaces, false, c)
  | none => (spaces, false, c)

/-- The pieces from here on with the gaps between them, and whether the last gap ends a line. -/
def pieces (inFlow : Bool) (indent : Int) : Nat → Text → Bool → Cursor → Text × Bool × Cursor
  | 0, _, fresh, c => ([], fresh, c)
  | fuel + 1, before, fresh, c =>
    let head := piece inFlow c.ahead
    if c.sees (· = '#') || head.isEmpty then ([], fresh, c)
    else
      let (space, fresh, c) := gap (c.skip head.length)
      if space.isEmpty || c.sees (· = '#') || (!inFlow && c.mark.column < indent) then
        (before ++ head, fresh, c)
      else
        let (more, fresh, c) := pieces inFlow indent fuel space fresh c
        (before ++ head ++ more, fresh, c)

def read (inFlow : Bool) (indent : Int) (c : Cursor) : Text × Bool × Cursor :=
  pieces inFlow indent c.ahead.length [] false c

end Plain

namespace Quoted

/-- The line ends behind a line end; each line may be indented. -/
def breaks (start : Mark) (lineStart : Bool) : Mark → Text → Except Failure (Text × Cursor)
  | mark, [] => .ok ([], ⟨[], mark⟩)
  | mark, c :: rest =>
    if lineStart && Cursor.atDocumentMarker ⟨c :: rest, mark⟩ then
      failIn .quoted start .documentMarker mark
    else if isSpaceOrTab c then breaks start false (mark.past c) rest
    else if isBreak c then do
      let (more, after) ← breaks start true (mark.past c) rest
      return (breakText c :: more, after)
    else .ok ([], ⟨c :: rest, mark⟩)

/-- The white space inside a quoted scalar, folded if a line ends in it. -/
def gap (start : Mark) (c : Cursor) : Except Failure (Text × Cursor) :=
  let spaces := c.ahead.takeWhile isSpaceOrTab
  let c := c.skip spaces.length
  match c.head? with
  | none => failIn .quoted start .endOfText c.mark
  | some ch =>
    if isBreak ch then do
      let (more, after) ← breaks start true c.next.mark c.next.ahead
      return (Plain.folded ch more, after)
    else .ok (spaces, c)

/-- The code point of an escape by one letter. -/
def letterCode? : Char → Option Nat
  | '0' => some 0
  | 'a' => some 7
  | 'b' => some 8
  | 't' => some 9
  | '\t' => some 9
  | 'n' => some 0xa
  | 'v' => some 0xb
  | 'f' => some 0xc
  | 'r' => some 0xd
  | 'e' => some 0x1b
  | ' ' => some 0x20
  | '"' => some 0x22
  | '\\' => some 0x5c
  | '/' => some 0x2f
  | 'N' => some 0x85
  | '_' => some 0xa0
  | 'L' => some 0x2028
  | 'P' => some 0x2029
  | _ => none

/-- The number of digits of an escape by code. -/
def codeLength? : Char → Option Nat
  | 'x' => some 2
  | 'u' => some 4
  | 'U' => some 8
  | _ => none

/-- The number that `count` hexadecimal digits at the head of a text denote, or what stands where
one is missing. -/
def hexNumber (value : Nat) : Nat → Text → Except Found Nat
  | 0, _ => .ok value
  | _ + 1, [] => .error none
  | count + 1, c :: rest =>
    match Text.hexValue? c with
    | some digit => hexNumber (16 * value + digit) count rest
    | none => .error (some c)

/-- The code points that an escape denotes, behind its backslash. -/
def escape (start : Mark) (c : Cursor) : Except Failure (List Nat × Cursor) :=
  match c.head? with
  | none => failIn .doubleQuoted start (.escape none) c.mark
  | some ch =>
    match letterCode? ch, codeLength? ch with
    | some code, _ => .ok ([code], c.next)
    | none, some count =>
      match hexNumber 0 count c.next.ahead with
      | .error found => failIn .doubleQuoted start (.hexDigits count found) c.next.mark
      | .ok code =>
        if code < 0x110000 then .ok ([code], c.next.skip count)
        else .error (.scalar (if code < 0x80000000 then .codePoint else .codeWord))
    | none, none =>
      if isBreak ch then do
        let (more, after) ← breaks start true c.next.mark c.next.ahead
        return (more.map Char.toNat, after)
      else failIn .doubleQuoted start (.escape (some ch)) c.mark

/-- The code points up to the closing quote. In single quotes only a doubled quote is special. -/
def body (double : Bool) (start : Mark) : Nat → Cursor → Except Failure (List Nat × Cursor)
  | 0, c => failIn .quoted start .endOfText c.mark
  | fuel + 1, c =>
    match c.head? with
    | none => failIn .quoted start .endOfText c.mark
    | some ch =>
      let reading : Except Failure (Option (List Nat) × Cursor) :=
        if ch = (if double then '"' else '\'') then
          if !double && c.second? == some '\'' then .ok (some ['\''.toNat], c.skip 2)
          else .ok (none, c.next)
        else if isSpaceOrTab ch || isBreak ch then do
          let (space, after) ← gap start c
          return (some (space.map Char.toNat), after)
        else if double && ch == '\\' then do
          let (codes, after) ← escape start c.next
          return (some codes, after)
        else .ok (some [ch.toNat], c.next)
      match reading with
      | .error f => .error f
      | .ok (none, after) => .ok ([], after)
      | .ok (some codes, after) => do
        let (more, after) ← body double start fuel after
        return (codes ++ more, after)

def read (double : Bool) (c : Cursor) : Except Failure (List Nat × Cursor) :=
  body double c.mark c.ahead.length c.next

end Quoted

namespace Block

inductive Ending where
  | clip | strip | keep
  deriving DecidableEq, Repr

def ending? : Char → Option Ending
  | '+' => some .keep
  | '-' => some .strip
  | _ => none

/-- The digit that gives the indentation, if there is one. -/
def indentDigit (start : Mark) (c : Cursor) : Except Failure (Option Nat × Cursor) :=
  match c.head? with
  | some ch =>
    if ch = '0' then failIn .blockScalar start .zeroIndent c.mark
    else if ch.isDigit then .ok (some (ch.toNat - '0'.toNat), c.next)
    else .ok (none, c)
  | none => .ok (none, c)

def indicators (start : Mark) (c : Cursor) : Except Failure (Ending × Option Nat × Cursor) := do
  let (ending, indent, c) ← match c.head?.bind ending? with
    | some ending =>
      let (indent, c) ← indentDigit start c.next
      pure (ending, indent, c)
    | none =>
      let (indent, c) ← indentDigit start c
      match indent, c.head?.bind ending? with
      | some _, some ending => pure (ending, indent, c.next)
      | _, _ => pure (Ending.clip, indent, c)
  if c.head? = some '\t' ∨ !endsWord c.head? then
    failIn .blockScalar start (.blockIndicator c.head?) c.mark
  else return (ending, indent, c)

def restOfLine (context : Context) (start : Mark) (c : Cursor) : Except Failure Cursor :=
  let c := c.skipWhile (· = ' ')
  let c := if c.sees (· = '#') then c.skipWhile (!isBreak ·) else c
  match c.head? with
  | none => .ok c
  | some ch => if isBreak ch then .ok c.next else failIn context start (.lineEnd (some ch)) c.mark

/-- The line ends from here on, and the greatest column that spaces lead to. -/
def deepest (column : Nat) : Mark → Text → Text × Nat × Cursor
  | mark, [] => ([], column, ⟨[], mark⟩)
  | mark, c :: rest =>
    if c = ' ' then deepest (max column (mark.past c).column) (mark.past c) rest
    else if isBreak c then
      let (more, column, after) := deepest column (mark.past c) rest
      (breakText c :: more, column, after)
    else ([], column, ⟨c :: rest, mark⟩)

/-- The line ends from here on; each line may have up to `indent` spaces in front. -/
def breaks (indent : Nat) : Mark → Text → Text × Cursor
  | mark, [] => ([], ⟨[], mark⟩)
  | mark, c :: rest =>
    if c = ' ' ∧ mark.column < indent then breaks indent (mark.past c) rest
    else if isBreak c then
      let (more, after) := breaks indent (mark.past c) rest
      (breakText c :: more, after)
    else ([], ⟨c :: rest, mark⟩)

/-- Whether a line of the block begins here. -/
def atLine (indent : Nat) (c : Cursor) : Bool := c.mark.column == indent && !c.ahead.isEmpty

/-- The lines from here on, given the line ends in front of them. The line end of the last line
and the line ends behind it are returned apart. -/
def lines (fold : Bool) (indent : Nat) : Nat → Text → Cursor → Text × Text × Text × Cursor
  | 0, before, c => ([], [], before, c)
  | fuel + 1, before, c =>
    if atLine indent c then
      let line := c.ahead.takeWhile (!isBreak ·)
      let behind := c.skip line.length
      let ending := (behind.head?.map breakText).toList
      let (more, after) := breaks indent behind.next.mark behind.next.ahead
      if atLine indent after then
        let joint : Text :=
          if fold && ending == ['\n'] && !c.sees isSpaceOrTab && !after.sees isSpaceOrTab then
            if more.isEmpty then [' '] else []
          else ending
        let (t, ending, blank, after) := lines fold indent fuel more after
        (before ++ line ++ joint ++ t, ending, blank, after)
      else (before ++ line, ending, more, after)
    else ([], [], before, c)

/-- The block of lines that begins here, inside a collection with the given indentation. -/
def read (fold : Bool) (outer : Int) (c : Cursor) : Except Failure (Text × Cursor) := do
  let (ending, digit, behind) ← indicators c.mark c.next
  let c ← restOfLine .blockScalar c.mark behind
  let least := (max 1 (outer + 1)).toNat
  let (indent, before, c) := match digit with
    | some digit =>
      let (before, c) := breaks (least + digit - 1) c.mark c.ahead
      (least + digit - 1, before, c)
    | none =>
      let (before, column, c) := deepest 0 c.mark c.ahead
      (max least column, before, c)
  let (t, lastBreak, blank, c) := lines fold indent (c.ahead.length + 1) before c
  return (match ending with
    | .strip => t
    | .clip => t ++ lastBreak
    | .keep => t ++ lastBreak ++ blank, c)

end Block

end KeywordSieve.Yaml
