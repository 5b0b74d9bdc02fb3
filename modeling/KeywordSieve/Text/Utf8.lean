import KeywordSieve.Text.Basic

/-!
Reading text from UTF-8 bytes. Only the shortest form of a code point is accepted, and no
surrogates. The bytes may come in parts; a fault names the bytes that it concerns and where they
stand in their part.
-/
namespace KeywordSieve.Utf8

open Text

inductive Cause where
  | start | continuation | unexpectedEnd
  deriving DecidableEq, Repr

structure Fault where
  byte : UInt8
  position : Nat
  length : Nat
  cause : Cause
  deriving DecidableEq, Repr

def Cause.message : Cause → Text
  | start => "invalid start byte"
  | continuation => "invalid continuation byte"
  | unexpectedEnd => "unexpected end of data"

namespace Fault

def subject (f : Fault) : Text :=
  if f.length = 1 then
    "byte 0x" ++ hexDigits 2 f.byte.toNat ++ " in position " ++ ofNat f.position
  else
    "bytes in position " ++ ofNat f.position ++ "-" ++ ofNat (f.position + f.length - 1)

def message (f : Fault) : Text :=
  "'utf-8' codec can't decode " ++ f.subject ++ ": " ++ f.cause.message

end Fault

/-- A sequence that has begun: its bytes so far, the bits in them, how many bytes are missing, and
the range of the next one. -/
structure Pending where
  bytes : List UInt8
  bits : Nat
  missing : Nat
  low : UInt8 := 0x80
  high : UInt8 := 0xbf
  deriving Repr

/-- What a byte above `0x7f` begins. The range of the second byte excludes longer forms than
needed, surrogates, and code points above the last one. -/
def begin? (b : UInt8) : Option Pending :=
  let bits := b.toNat
  if b < 0xc2 then none
  else if b < 0xe0 then some { bytes := [b], bits := bits % 0x20, missing := 1 }
  else if b = 0xe0 then some { bytes := [b], bits := 0, missing := 2, low := 0xa0 }
  else if b = 0xed then some { bytes := [b], bits := bits % 0x10, missing := 2, high := 0x9f }
  else if b < 0xf0 then some { bytes := [b], bits := bits % 0x10, missing := 2 }
  else if b = 0xf0 then some { bytes := [b], bits := 0, missing := 3, low := 0x90 }
  else if b < 0xf4 then some { bytes := [b], bits := bits % 8, missing := 3 }
  else if b = 0xf4 then some { bytes := [b], bits := bits % 8, missing := 3, high := 0x8f }
  else none

namespace Pending

def extend (p : Pending) (b : UInt8) : Pending :=
  { bytes := p.bytes ++ [b]
    bits := p.bits * 0x40 + b.toNat % 0x40
    missing := p.missing - 1 }

/-- The fault of a sequence that the byte at a position does not continue. -/
def fault (p : Pending) (position : Nat) : Fault :=
  { byte := p.bytes.headD 0
    position := position - p.bytes.length
    length := p.bytes.length
    cause := .continuation }

end Pending

/-- Whether two bytes begin a surrogate. -/
def beginsSurrogate : List UInt8 → Bool
  | [a, b] => a == 0xed && 0xa0 ≤ b && b ≤ 0xbf
  | _ => false

/-- Decodes the bytes from a position on, given the sequence that has begun before it. The bytes of
a sequence that is not finished are held back, and so are two at the very end that begin a
surrogate. -/
def decodeFrom (position : Nat) :
    Option Pending → List UInt8 → Except Fault (Text × List UInt8)
  | none, [] => .ok ([], [])
  | some p, [] => .ok ([], p.bytes)
  | none, b :: rest =>
    if b < 0x80 then
      (fun (t, held) => (Char.ofNat b.toNat :: t, held)) <$> decodeFrom (position + 1) none rest
    else match begin? b with
      | some p => decodeFrom (position + 1) (some p) rest
      | none => .error { byte := b, position, length := 1, cause := .start }
  | some p, b :: rest =>
    if b < p.low ∨ p.high < b then
      if beginsSurrogate (p.bytes ++ b :: rest) then .ok ([], p.bytes ++ [b])
      else .error (p.fault position)
    else if p.missing = 1 then
      (fun (t, held) => (Char.ofNat (p.extend b).bits :: t, held)) <$>
        decodeFrom (position + 1) none rest
    else decodeFrom (position + 1) (some (p.extend b)) rest

/-- The text that bytes encode, and the bytes held back at their end, which more bytes may make a
character. -/
def decodePart (bytes : List UInt8) : Except Fault (Text × List UInt8) := decodeFrom 0 none bytes

/-- The fault of bytes that are held back when nothing follows them. -/
def endFault (held : List UInt8) : Fault :=
  { byte := held.headD 0
    position := 0
    length := if beginsSurrogate held then 1 else held.length
    cause := if beginsSurrogate held then .continuation else .unexpectedEnd }

def decode? (bytes : List UInt8) : Option Text :=
  match decodePart bytes with
  | .ok (t, []) => some t
  | _ => none

end KeywordSieve.Utf8

namespace KeywordSieve.Text

/-- Makes every carriage return, with the line feed behind it if there is one, a line feed. -/
def unifyLines : Text → Text
  | '\r' :: '\n' :: rest => '\n' :: unifyLines rest
  | '\r' :: rest => '\n' :: unifyLines rest
  | c :: rest => c :: unifyLines rest
  | [] => []

end KeywordSieve.Text
