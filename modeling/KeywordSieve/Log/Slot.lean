import KeywordSieve.Text.Basic

/-!
Slots of templates. A slot begins with a percent sign; then come the name of a field between
parentheses, flags, a width, a precision behind a point, a letter for the size of the value, which
means nothing, and the letter that says how the value is shown. All but the last may be missing.
-/
namespace KeywordSieve.Log

inductive Amount where
  | missing
  | written (n : Nat)
  | taken
  deriving DecidableEq, Repr

namespace Slot

/-- What may come next in a slot: anything; flags and what follows them; digits of the width; what
follows a width that is taken; a precision; its digits; what follows a precision that is taken; the
last letter. -/
inductive Stage where
  | opening | flags | width | widthTaken | point | precision | precisionTaken | letter
  deriving DecidableEq, Repr

end Slot

structure Slot where
  key : Option Text := none
  left : Bool := false
  zero : Bool := false
  plus : Bool := false
  blank : Bool := false
  full : Bool := false
  width : Amount := .missing
  precision : Amount := .missing
  stage : Slot.Stage := .opening
  deriving DecidableEq, Repr

namespace Slot

def digitOf (c : Char) : Nat := c.toNat - '0'.toNat

def appendDigit (a : Amount) (c : Char) : Amount :=
  match a with
  | .written n => .written (10 * n + digitOf c)
  | _ => .written (digitOf c)

def afterPrecision? (s : Slot) (c : Char) : Option Slot :=
  if c = 'h' ∨ c = 'l' ∨ c = 'L' then some { s with stage := .letter } else none

def afterWidth? (s : Slot) (c : Char) : Option Slot :=
  if c = '.' then some { s with precision := .written 0, stage := .point }
  else s.afterPrecision? c

/-- A width from its beginning, or what follows it. -/
def widthOn? (s : Slot) (c : Char) : Option Slot :=
  if c.isDigit then some { s with width := appendDigit s.width c, stage := .width }
  else if c = '*' then some { s with width := .taken, stage := .widthTaken }
  else s.afterWidth? c

/-- The slot after one more character, or nothing if the character is its last letter. -/
def extend? (s : Slot) (c : Char) : Option Slot :=
  match s.stage with
  | .opening | .flags =>
    let s := { s with stage := .flags }
    if c = '-' then some { s with left := true }
    else if c = '0' then some { s with zero := true }
    else if c = '+' then some { s with plus := true }
    else if c = ' ' then some { s with blank := true }
    else if c = '#' then some { s with full := true }
    else s.widthOn? c
  | .width =>
    if c.isDigit then some { s with width := appendDigit s.width c } else s.afterWidth? c
  | .widthTaken => s.afterWidth? c
  | .point =>
    if c = '*' then some { s with precision := .taken, stage := .precisionTaken }
    else if c.isDigit then
      some { s with precision := appendDigit s.precision c, stage := .precision }
    else s.afterPrecision? c
  | .precision =>
    if c.isDigit then some { s with precision := appendDigit s.precision c }
    else s.afterPrecision? c
  | .precisionTaken => s.afterPrecision? c
  | .letter => none

end Slot

/-- A part of a template: a character, a slot with its letter and the place of the letter, or a
slot that is cut off, perhaps inside its key. -/
inductive Piece where
  | literal (c : Char)
  | slot (s : Slot) (letter : Char) (index : Nat)
  | cutOff (s : Slot)
  | cutOffKey
  deriving DecidableEq, Repr

namespace Piece

/-- Where in a template one is. A key may hold parentheses in pairs; `depth` counts those that are
open. -/
inductive State where
  | outside
  | inKey (depth : Nat) (read : Text)
  | inSlot (s : Slot)

def parseFrom (index : Nat) : State → Text → List Piece
  | .outside, [] => []
  | .inKey _ _, [] => [.cutOffKey]
  | .inSlot s, [] => [.cutOff s]
  | .outside, c :: rest =>
    if c = '%' then parseFrom (index + 1) (.inSlot {}) rest
    else .literal c :: parseFrom (index + 1) .outside rest
  | .inKey depth read, c :: rest =>
    if c = ')' ∧ depth = 0 then
      parseFrom (index + 1) (.inSlot { key := some read, stage := .flags }) rest
    else
      let depth := if c = '(' then depth + 1 else if c = ')' then depth - 1 else depth
      parseFrom (index + 1) (.inKey depth (read ++ [c])) rest
  | .inSlot s, c :: rest =>
    if s.stage = .opening ∧ c = '(' then parseFrom (index + 1) (.inKey 0 []) rest
    else match s.extend? c with
      | some s => parseFrom (index + 1) (.inSlot s) rest
      | none => .slot s c index :: parseFrom (index + 1) .outside rest

def parse (t : Text) : List Piece := parseFrom 0 .outside t

end Piece

end KeywordSieve.Log
