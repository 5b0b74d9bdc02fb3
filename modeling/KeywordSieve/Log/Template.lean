import KeywordSieve.Log.Slot
import KeywordSieve.Number.Places
import KeywordSieve.Unicode.Digit
import KeywordSieve.Unicode.Word
import KeywordSieve.Value

/-!
Templates: texts with slots. A slot takes the next of a list of values, or the value of the field
that it names, and shows it as text, as a character or as a number, perhaps filled up to a width.
What is wrong with a template shows only when the slots in front of it are filled.
-/
namespace KeywordSieve.Log.Template

open Text

inductive Fault where
  | tooFew
  | tooMany
  | needsMapping
  | noKey (key : Text)
  | letter (c : Char) (index : Nat)
  | cutOff
  | cutOffKey
  | amountNotInteger
  | takenWidthTooLarge
  | takenPrecisionTooLarge
  | writtenWidthTooLarge
  | writtenPrecisionTooLarge
  | precisionTooLarge
  | notNumber (letter : Char) (kind : Text)
  | notInteger (letter : Char) (kind : Text)
  | notReal (kind : Text)
  | tooLargeForReal
  | notCharacter
  | noSuchCharacter
  | infinite
  | nan
  | tooWide
  | unwritable (fault : Value.WriteFault)
  deriving DecidableEq, Repr

def Fault.message : Fault → Text
  | tooFew => "not enough arguments for format string"
  | tooMany => "not all arguments converted during string formatting"
  | needsMapping => "format requires a mapping"
  | noKey key => quoted key
  | letter c index =>
    "unsupported format character '" ++ (if '\x1f' ≤ c ∧ c ≤ '~' then c else '?') ::
      "' (0x" ++ hexDigits 0 c.toNat ++ ") at index " ++ ofNat index
  | cutOff => "incomplete format"
  | cutOffKey => "incomplete format key"
  | amountNotInteger => "* wants int"
  | takenWidthTooLarge => "Python int too large to convert to C ssize_t"
  | takenPrecisionTooLarge => "Python int too large to convert to C int"
  | writtenWidthTooLarge => "width too big"
  | writtenPrecisionTooLarge => "precision too big"
  | precisionTooLarge => "precision too large"
  | notNumber conversion kind =>
    '%' :: conversion :: " format: a real number is required, not " ++ kind
  | notInteger conversion kind =>
    '%' :: conversion :: " format: an integer is required, not " ++ kind
  | notReal kind => "must be real number, not " ++ kind
  | tooLargeForReal => "int too large to convert to float"
  | notCharacter => "%c requires int or char"
  | noSuchCharacter => "%c arg not in range(0x110000)"
  | infinite => "cannot convert float infinity to integer"
  | nan => "cannot convert float NaN to integer"
  | tooWide => []
  | unwritable fault => fault.message

structure Fit where
  left : Bool := false
  zero : Bool := false
  plus : Bool := false
  blank : Bool := false
  full : Bool := false
  width : Nat := 0
  precision : Option Nat := none
  deriving DecidableEq, Repr

/-- The text of a value before it is filled up. Zeros go between the front and the body of a
number. -/
structure Shape where
  front : Text := []
  body : Text
  isNumber : Bool := false
  deriving DecidableEq, Repr

namespace Fit

/-- No text can be so wide. -/
def widest : Nat := 100000000000

/-- The front of a number: its sign, if it shows one, and the mark of its base. -/
def front (f : Fit) (negative : Bool) (mark : Text := []) : Text :=
  (if negative then ['-'] else if f.plus then ['+'] else if f.blank then [' '] else []) ++ mark

/-- Fills the text of a value up to the width. -/
def fill (f : Fit) (s : Shape) : Except Fault Text :=
  if widest < f.width then .error .tooWide
  else if f.zero && !f.left && s.isNumber then
    .ok (s.front ++ padLeft '0' (f.width - s.front.length) s.body)
  else
    let t := s.front ++ s.body
    .ok (if f.left then t ++ List.replicate (f.width - t.length) ' ' else padLeft ' ' f.width t)

def ofText (f : Fit) (t : Text) : Shape :=
  { body := match f.precision with
      | some n => t.take n
      | none => t }

/-- The shape of the text of a value, unless something keeps the value from being written. -/
def ofWritten (f : Fit) (refusal? : Option Value.WriteFault) (t : Text) : Except Fault Shape :=
  match refusal? with
  | some fault => .error (.unwritable fault)
  | none => .ok (f.ofText t)

/-- The greatest precision of an integer. -/
def mostDigits : Nat := 2147483644

/-- The shape of an integer in a base, of which the precision is the least number of digits. -/
def ofInt (f : Fit) (base : Nat) (mark : Text) (n : Int) : Except Fault Shape :=
  let least := f.precision.getD 0
  if mostDigits < least then .error .precisionTooLarge
  else if base = 10 ∧ Value.isTooLong n then .error (.unwritable .digits)
  else .ok
    { front := f.front (n < 0) (if f.full then mark else [])
      body := padLeft '0' least (Nat.toDigits base n.natAbs)
      isNumber := true }

/-- The shape of a double, with six digits if there is no precision. -/
def ofDouble (f : Fit) (layout : Double.Layout) (x : Double) : Shape :=
  let (negative, body) := x.laidOut layout f.full (f.precision.getD 6)
  { front := f.front negative, body, isNumber := true }

end Fit

def wholeOf (letter : Char) : Value → Except Fault Int
  | .bool b => .ok (if b then 1 else 0)
  | .int n => .ok n
  | .float (.finite negative m q) =>
    let (n, d) := Double.ratio m q
    .ok (if negative then -(n / d : Nat) else (n / d : Nat))
  | .float (.infinite _) => .error .infinite
  | .float .nan => .error .nan
  | v => .error (.notNumber letter v.fullTypeName)

/-- The integer that a value is. -/
def integer? : Value → Option Int
  | .bool b => some (if b then 1 else 0)
  | .int n => some n
  | _ => none

def integerOf (letter : Char) (v : Value) : Except Fault Int :=
  match integer? v with
  | some n => .ok n
  | none => .error (.notInteger letter v.fullTypeName)

/-- The double that a value is, or is nearest to. -/
def realOf (v : Value) : Except Fault Double :=
  match v, integer? v with
  | .float x, _ => .ok x
  | _, some n =>
    match Double.ofRatio (n < 0) n.natAbs 1 with
    | .infinite _ => .error .tooLargeForReal
    | x => .ok x
  | v, none => .error (.notReal v.fullTypeName)

/-- The character that a value is, or that it is the number of. -/
def characterOf (v : Value) : Except Fault Char :=
  match v, integer? v with
  | .text [c], _ => .ok c
  | _, some n =>
    if 0 ≤ n ∧ n < 0x110000 then .ok (Char.ofNat n.toNat) else .error .noSuchCharacter
  | _, none => .error .notCharacter

/-- A text with escapes for all that is not ASCII. -/
def plainAscii (t : Text) : Text :=
  t.flatMap fun c => if c.toNat < 0x80 then [c] else escapeCode c.toNat

/-- The shape of a value in a slot with a letter. Values in it are nested to a given depth. -/
def convert (room : Nat) (f : Fit) (letter : Char) (index : Nat) (v : Value) :
    Except Fault Shape :=
  let capital (s : Shape) : Shape :=
    { s with front := s.front.map Char.toUpper, body := s.body.map Char.toUpper }
  match letter with
  | 's' => f.ofWritten (v.displayRefusal? room) v.display
  | 'r' => f.ofWritten (v.refusal? room) v.shown
  | 'a' => f.ofWritten (v.refusal? room) (plainAscii v.shown)
  | 'd' | 'i' | 'u' => wholeOf letter v >>= f.ofInt 10 []
  | 'o' => integerOf letter v >>= f.ofInt 8 "0o"
  | 'x' => integerOf letter v >>= f.ofInt 16 "0x"
  | 'X' => capital <$> (integerOf letter v >>= f.ofInt 16 "0x")
  | 'f' => f.ofDouble .places <$> realOf v
  | 'F' => (fun x => capital (f.ofDouble .places x)) <$> realOf v
  | 'e' => f.ofDouble .exponent <$> realOf v
  | 'E' => (fun x => capital (f.ofDouble .exponent x)) <$> realOf v
  | 'g' => f.ofDouble .general <$> realOf v
  | 'G' => (fun x => capital (f.ofDouble .general x)) <$> realOf v
  | 'c' => (fun c => { body := [c] }) <$> characterOf v
  | _ => .error (.letter letter index)

/-- What slots are filled from: values in order, or named values. Named values may also fill one
slot as a whole. -/
inductive Source where
  | ordered (values : List Value)
  | named (lookup : Text → Option Value) (whole : Option Value)

namespace Source

def next : Source → Except Fault (Value × Source)
  | ordered (v :: rest) => .ok (v, ordered rest)
  | named lookup (some v) => .ok (v, named lookup none)
  | _ => .error .tooFew

/-- Makes the value under a key the next one. -/
def select (source : Source) : Option Text → Except Fault Source
  | none => .ok source
  | some key =>
    match source with
    | ordered _ => .error .needsMapping
    | named lookup _ =>
      match lookup key with
      | some v => .ok (named lookup (some v))
      | none => .error (.noKey key)

def hasMore : Source → Bool
  | ordered values => !values.isEmpty
  | named _ _ => false

def nextInteger (source : Source) (size : Nat) (tooLarge : Fault) :
    Except Fault (Int × Source) := do
  let (v, source) ← source.next
  match integer? v with
  | none => .error .amountNotInteger
  | some n => if -(size : Int) ≤ n ∧ n < size then return (n, source) else .error tooLarge

def widthBound : Nat := 0x8000000000000000

def precisionBound : Nat := 0x80000000

/-- Adds the width of a slot. A negative one that is taken stands for the flag to fill up on the
right. -/
def addWidth (source : Source) (width : Amount) (f : Fit) : Except Fault (Fit × Source) :=
  match width with
  | .missing => .ok (f, source)
  | .written n =>
    if n < widthBound then .ok ({ f with width := n }, source) else .error .writtenWidthTooLarge
  | .taken => do
    let (n, source) ← source.nextInteger widthBound .takenWidthTooLarge
    return ({ f with left := f.left || n < 0, width := n.natAbs }, source)

/-- Adds the precision of a slot. A negative one that is taken counts as zero. -/
def addPrecision (source : Source) (precision : Amount) (f : Fit) : Except Fault (Fit × Source) :=
  match precision with
  | .missing => .ok (f, source)
  | .written n =>
    if n < precisionBound then .ok ({ f with precision := some n }, source)
    else .error .writtenPrecisionTooLarge
  | .taken => do
    let (n, source) ← source.nextInteger precisionBound .takenPrecisionTooLarge
    return ({ f with precision := some n.toNat }, source)

/-- Finds how the value of a slot is fitted in, and makes the value the next one. -/
def settle (source : Source) (s : Slot) : Except Fault (Fit × Source) := do
  let source ← source.select s.key
  let (f, source) ← source.addWidth s.width
    { left := s.left, zero := s.zero, plus := s.plus, blank := s.blank, full := s.full }
  source.addPrecision s.precision f

end Source

/-- Fills the slots of pieces. Two percent signs in a row stand for one. -/
def fillPieces (room : Nat) (source : Source) : List Piece → Except Fault Text
  | [] => if source.hasMore then .error .tooMany else .ok []
  | .literal c :: rest => (c :: ·) <$> fillPieces room source rest
  | .slot s letter index :: rest => do
    if letter = '%' ∧ s.stage = .opening then
      return '%' :: (← fillPieces room source rest)
    else
      let (f, source) ← source.settle s
      let (v, source) ← source.next
      let t ← f.fill (← convert room f letter index v)
      return t ++ (← fillPieces room source rest)
  | .cutOff s :: _ => do
    let _ ← source.settle s
    .error .cutOff
  | .cutOffKey :: _ =>
    match source with
    | .ordered _ => .error .needsMapping
    | .named _ _ => .error .cutOffKey

def fill (room : Nat) (source : Source) (template : Text) : Except Fault Text :=
  fillPieces room source (Piece.parse template)

def dropNumber : Text → Text
  | '*' :: rest => rest
  | t => t.dropWhile fun c => (Unicode.digit? c).isSome

/-- The letters that may end a slot, in any case: among those, three letters beyond ASCII. -/
def lastLetters : Text := "diouxefgcrsaDIOUXEFGCRSA%İıſ"

/-- Whether a text begins with the rest of a slot behind its key. -/
def endsSlot (t : Text) : Bool :=
  let t := dropNumber (t.dropWhile ("#0+ -".toList.contains ·))
  let t := match t with
    | '.' :: c :: rest =>
      if c = '*' ∨ (Unicode.digit? c).isSome then dropNumber (c :: rest) else t
    | t => t
  t.head?.any (lastLetters.contains ·)

/-- Whether a text begins with a slot that names what it shows. -/
def startsWithNamed : Text → Bool
  | '%' :: '(' :: rest =>
    let name := rest.takeWhile Unicode.isWord
    match rest.drop name.length with
    | ')' :: rest => !name.isEmpty && endsSlot rest
    | _ => false
  | _ => false

def hasNamed : Text → Bool
  | [] => false
  | c :: rest => startsWithNamed (c :: rest) || hasNamed rest

end KeywordSieve.Log.Template
