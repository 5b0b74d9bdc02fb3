/-!
Texts are lists of characters, so that a rule about them is an induction on the list. Here are the
few operations that the rest of the library builds on: trimming, cutting at a separator, joining,
looking for a piece inside a text, and writing numbers.
-/
namespace KeywordSieve

/-- A text is the list of its code points. -/
abbrev Text := List Char

/-- A literal may stand where a text is expected. -/
instance : Coe String Text := ⟨String.toList⟩

namespace Text

def trimBoth (p : Char → Bool) (t : Text) : Text :=
  ((t.dropWhile p).reverse.dropWhile p).reverse

/-- The pieces between the occurrences of a separator; there is always at least one. -/
def pieces (separator : Char) : Text → List Text
  | [] => [[]]
  | c :: rest =>
    match pieces separator rest with
    | [] => [[c]]
    | piece :: more => if c = separator then [] :: piece :: more else (c :: piece) :: more

theorem pieces_ne_nil (separator : Char) (t : Text) : pieces separator t ≠ [] := by
  cases t with
  | nil => simp [pieces]
  | cons c rest => simp only [pieces]; split <;> (try split) <;> simp

def joinWith (separator : Text) (parts : List Text) : Text := separator.intercalate parts

/-- Whether `needle` stands somewhere in the text. -/
def occurs (needle : Text) : Text → Bool
  | [] => needle.isEmpty
  | c :: rest => needle.isPrefixOf (c :: rest) || occurs needle rest

theorem occurs_iff {needle t : Text} : occurs needle t = true ↔ needle <:+: t := by
  induction t with
  | nil => simp [occurs, List.infix_nil]
  | cons c rest ih => simp [occurs, List.infix_cons_iff, ih]

/-- Whether a text comes before another, or is the same. Code points count, one after the other, and
a text comes after its beginnings. -/
def isBefore : Text → Text → Bool
  | [], _ => true
  | _ :: _, [] => false
  | c :: s, d :: t => c.toNat < d.toNat || (c == d && isBefore s t)

/-- Replaces the letter by its small form, for the ASCII letters. -/
def smallAscii (c : Char) : Char := if 'A' ≤ c ∧ c ≤ 'Z' then Char.ofNat (c.toNat + 32) else c

/-- Decimal digits of a number, without leading zeros. -/
def ofNat (n : Nat) : Text := Nat.toDigits 10 n

def ofInt : Int → Text
  | .ofNat n => ofNat n
  | .negSucc n => '-' :: ofNat (n + 1)

def padLeft (fill : Char) (width : Nat) (t : Text) : Text :=
  List.replicate (width - t.length) fill ++ t

/-- Decimal digits with leading zeros up to a width. -/
def digits (width n : Nat) : Text := padLeft '0' width (ofNat n)

/-- Hexadecimal digits in small letters with leading zeros up to a width. -/
def hexDigits (width n : Nat) : Text := padLeft '0' width (Nat.toDigits 16 n)

/-- The value of a hexadecimal digit, in small or capital letters. -/
def hexValue? (c : Char) : Option Nat :=
  if '0' ≤ c ∧ c ≤ '9' then some (c.toNat - '0'.toNat)
  else if 'a' ≤ c ∧ c ≤ 'f' then some (c.toNat - 'a'.toNat + 10)
  else if 'A' ≤ c ∧ c ≤ 'F' then some (c.toNat - 'A'.toNat + 10)
  else none

end Text

end KeywordSieve
