import KeywordSieve.Text.Basic
import KeywordSieve.Unicode.Blank
import KeywordSieve.Unicode.Case
import KeywordSieve.Unicode.Cased

/-!
Folding a text to lower case. A character folds by the Unicode tables, except that a capital sigma
becomes a final sigma at the end of a word: a cased letter stands before it, none after it, with
only case-ignorable characters between.
-/
namespace KeywordSieve.Text

open Unicode

def capitalSigma : Char := Char.ofNat 0x3a3

def finalSigma : Char := Char.ofNat 0x3c2

/-- Whether the nearest character that is not case-ignorable is a cased letter. -/
def meetsCased (t : Text) : Bool :=
  match t.dropWhile isCaseIgnorable with
  | [] => false
  | c :: _ => isCased c

/-- Folds one character, given what stands before it (nearest first) and after it. -/
def foldChar (before after : Text) (c : Char) : Text :=
  if c = capitalSigma ∧ meetsCased before ∧ ¬ meetsCased after then [finalSigma] else lower c

/-- Folds the rest of a text whose beginning, nearest first, is `before`. -/
def foldAfter (before : Text) : Text → Text
  | [] => []
  | c :: rest => foldChar before rest c ++ foldAfter (c :: before) rest

def fold (t : Text) : Text := foldAfter [] t

def raise (t : Text) : Text := t.flatMap upper

def trim (t : Text) : Text := trimBoth isBlank t

end KeywordSieve.Text
