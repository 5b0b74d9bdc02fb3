import KeywordSieve.Json.Basic

/-!
Reading JSON. `Json.ofText?` reads a text that holds one value, with white space around it and
between its parts. A number is an integer unless it has a fraction or an exponent. Fields of an
object are kept as they are written, in order.
-/
namespace KeywordSieve.Json

open Text

def isSpace (c : Char) : Bool := c == ' ' || c == '\t' || c == '\n' || c == '\r'

def skipSpace (t : Text) : Text := t.dropWhile isSpace

/-- What follows a word at the head of a text. -/
def after? (word t : Text) : Option Text :=
  if word.isPrefixOf t then some (t.drop word.length) else none

def escaped? : Char → Option Char
  | '"' => some '"'
  | '\\' => some '\\'
  | '/' => some '/'
  | 'b' => some '\x08'
  | 'f' => some '\x0c'
  | 'n' => some '\n'
  | 'r' => some '\r'
  | 't' => some '\t'
  | _ => none

/-- The number that four hexadecimal digits denote. -/
def hexCode? (a b c d : Char) : Option Nat :=
  [a, b, c, d].foldlM (fun n digit => (hexValue? digit).map (16 * n + ·)) 0

/-- The codes up to the closing quote of a string, and what follows it. A character beyond the basic
plane may be written as a pair of codes. -/
def codes? : Text → Option (List Nat × Text)
  | [] => none
  | '"' :: rest => some ([], rest)
  | '\\' :: 'u' :: a :: b :: c :: d :: rest => do
    let code ← hexCode? a b c d
    let (more, rest) ← codes? rest
    return (code :: more, rest)
  | '\\' :: e :: rest => do
    let c ← escaped? e
    let (more, rest) ← codes? rest
    return (c.toNat :: more, rest)
  | c :: rest =>
    if c.toNat < 0x20 then none
    else do
      let (more, rest) ← codes? rest
      return (c.toNat :: more, rest)

def isHigh (n : Nat) : Bool := 0xd800 ≤ n && n < 0xdc00

def isLow (n : Nat) : Bool := 0xdc00 ≤ n && n < 0xe000

/-- The text of some codes. Half of a pair has no text. -/
def textOfCodes? : List Nat → Option Text
  | [] => some []
  | n :: m :: rest =>
    if isHigh n && isLow m then
      (textOfCodes? rest).map (Char.ofNat (0x10000 + 0x400 * (n - 0xd800) + (m - 0xdc00)) :: ·)
    else if isHigh n || isLow n then none
    else (textOfCodes? (m :: rest)).map (Char.ofNat n :: ·)
  | [n] => if isHigh n || isLow n then none else some [Char.ofNat n]

/-- The string behind an opening quote, and what follows it. -/
def string? (t : Text) : Option (Text × Text) := do
  let (codes, rest) ← codes? t
  return (← textOfCodes? codes, rest)

def fraction : Text → Text
  | '.' :: rest =>
    let digits := rest.takeWhile Char.isDigit
    if digits.isEmpty then [] else '.' :: digits
  | _ => []

def exponent : Text → Text
  | e :: rest =>
    let (sign, behind) : Text × Text := match rest with
      | '-' :: more => (['-'], more)
      | '+' :: more => (['+'], more)
      | more => ([], more)
    let digits := behind.takeWhile Char.isDigit
    if (e == 'e' || e == 'E') && !digits.isEmpty then e :: sign ++ digits else []
  | [] => []

/-- The number at the head of a text, and what follows it. No digit stands behind a leading zero. -/
def number? (t : Text) : Option (Json × Text) :=
  let (negative, unsigned) := match t with
    | '-' :: rest => (true, rest)
    | rest => (false, rest)
  let whole := unsigned.takeWhile Char.isDigit
  let behind := unsigned.drop whole.length
  let fraction := fraction behind
  let exponent := exponent (behind.drop fraction.length)
  let rest := behind.drop (fraction.length + exponent.length)
  if whole.isEmpty || (whole.head? == some '0' && whole != ['0']) then none
  else if fraction.isEmpty && exponent.isEmpty then
    let n := (Double.leadingDigits whole).1
    some (int (if negative then -(n : Int) else n), rest)
  else (Double.ofUnsigned? negative (whole ++ fraction ++ exponent)).map fun x => (double x, rest)

/-- The value at the head of a text that is no string, array or object. -/
def simple? (t : Text) : Option (Json × Text) :=
  match after? "null" t, after? "true" t, after? "false" t with
  | some rest, _, _ => some (null, rest)
  | none, some rest, _ => some (bool true, rest)
  | none, none, some rest => some (bool false, rest)
  | none, none, none => number? t

mutual

/-- The value at the head of a text, and what follows it. -/
def value? : Nat → Text → Option (Json × Text)
  | 0, _ => none
  | fuel + 1, t =>
    match t with
    | '"' :: rest => (string? rest).map fun p => (text p.1, p.2)
    | '[' :: rest =>
      match skipSpace rest with
      | ']' :: rest => some (array [], rest)
      | rest => (elements? fuel rest).map fun p => (array p.1, p.2)
    | '\x7b' :: rest =>
      match skipSpace rest with
      | '\x7d' :: rest => some (object [], rest)
      | rest => (fields? fuel rest).map fun p => (object p.1, p.2)
    | t => simple? t

/-- The elements of an array up to its end, and what follows it. -/
def elements? : Nat → Text → Option (List Json × Text)
  | 0, _ => none
  | fuel + 1, t => do
    let (v, rest) ← value? fuel t
    match skipSpace rest with
    | ',' :: rest =>
      let (vs, rest) ← elements? fuel (skipSpace rest)
      return (v :: vs, rest)
    | ']' :: rest => return ([v], rest)
    | _ => none

/-- The fields of an object up to its end, and what follows it. -/
def fields? : Nat → Text → Option (List (Text × Json) × Text)
  | 0, _ => none
  | fuel + 1, t => do
    let (key, rest) ← string? (← after? "\"" t)
    let (v, rest) ← value? fuel (skipSpace (← after? ":" (skipSpace rest)))
    match skipSpace rest with
    | ',' :: rest =>
      let (more, rest) ← fields? fuel (skipSpace rest)
      return ((key, v) :: more, rest)
    | '\x7d' :: rest => return ([(key, v)], rest)
    | _ => none

end

/-- The value that a text holds. Each bracket of a text opens two steps of reading at most. -/
def ofText? (t : Text) : Option Json :=
  match value? (2 * t.length + 1) (skipSpace t) with
  | some (v, rest) => if (skipSpace rest).isEmpty then some v else none
  | none => none

mutual

def toValue : Json → Value
  | null => .null
  | bool b => .bool b
  | int n => .int n
  | double x => .float x
  | text t => .text t
  | array elements => .list (allToValue elements)
  | object fields => .mapping (fieldsToValue fields)

def allToValue : List Json → List Value
  | [] => []
  | j :: rest => toValue j :: allToValue rest

def fieldsToValue : List (Text × Json) → List (Value × Value)
  | [] => []
  | (key, j) :: rest => (.text key, toValue j) :: fieldsToValue rest

end

end KeywordSieve.Json
